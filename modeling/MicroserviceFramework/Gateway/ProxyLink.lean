import MicroserviceFramework.Gateway.Router
import MicroserviceFramework.Platform.Reader

/-!
# The connection of a proxy client to its service

What the gateway takes for requests and replies in flight are the bytes that the proxy client has
written and those that the service has. As long as the two are read in allowed steps, the bytes are
the frames of these messages: the service has handled the first of the requests, in their order, and
what the proxy client has not handled are the replies that are on their way.
-/

namespace MicroserviceFramework.Gateway

open Library Platform Receiver

/-- The message as the proxy client passes it on. -/
def Message.dispatch (m : Message) : Dispatch := ⟨m.head, m.msg⟩

/-- What the service handles for the message. -/
def Message.content (m : Message) : CMsgHead × List UInt8 :=
  (m.head.sized m.msg.bytes.length, m.msg.bytes)

/-- The reply that a frame is, to this request. -/
def Message.answer {codec : HeadCodec} (m : Message) (f : OutFrame codec) : Message :=
  { m with head := { f.header with msgId := m.head.msgId }, msg := f.dispatch.msg }

/-- The two ends that read on a connection, and what the service has written. What the proxy client
has written is in its own bufferevent. -/
structure ProxyLink where
  service : Reader := {}
  answers : List UInt8 := []
  client : Reader := {}

namespace ProxyLink

/-- The connection is lost with all that was not read. The service drops its end; the proxy client
keeps its buffers, and its header. -/
def lost (x : ProxyLink) : ProxyLink where
  client := {
    before := x.client.receiver.pbHead
    receiver := { x.client.receiver with input := [] } }

/-- The proxy client holds no part of a message. -/
def Between (x : ProxyLink) : Prop := x.client.receiver.clear = x.client.receiver

/-- The frames that were written for these messages. -/
structure Frames {codec : HeadCodec} (output : List UInt8) (x : ProxyLink)
    (requests replies : List Message) (asked answered : List (Frame codec)) : Prop where
  output : stream asked = output
  requests : asked.map (fun f => (f.head, f.body)) = requests.map fun m => (m.head, m.msg.bytes)
  service : x.service.Reads asked
  answers : stream answered = x.answers
  client : x.client.Reads answered
  replies : x.client.dispatched ++ replies.map Message.dispatch = answered.map (·.dispatch)

/-- The bytes of the connection are those of the messages. -/
def Carries (codec : HeadCodec) (output : List UInt8) (x : ProxyLink)
    (requests replies : List Message) : Prop :=
  ∃ asked answered : List (Frame codec), x.Frames output requests replies asked answered

variable {codec : HeadCodec} {output : List UInt8} {x : ProxyLink} {requests replies : List Message}

namespace Carries

theorem start : ({} : ProxyLink).Carries codec [] [] [] :=
  ⟨[], [], rfl, rfl, .start [] none, rfl, .start [] none, rfl⟩

theorem lost (between : x.Between) : x.lost.Carries codec [] [] [] := by
  have clean : ({ x.client.receiver with input := [] } : Receiver) =
      idle x.client.receiver.pbHead [] := by
    rw [← between]
    rfl
  refine ⟨[], [], rfl, rfl, .start [] none, rfl, ?_, rfl⟩
  rw [ProxyLink.lost, clean]
  exact .start [] _

/-- A request is written. -/
theorem request (carries : x.Carries codec output requests replies) {f : Frame codec} {m : Message}
    (head : f.head = m.head) (body : f.body = m.msg.bytes) :
    x.Carries codec (output ++ f.bytes) (requests ++ [m]) replies := by
  obtain ⟨asked, answered, frames⟩ := carries
  refine ⟨asked ++ [f], answered, ?_, ?_, frames.service.append [f], frames.answers, frames.client,
    frames.replies⟩
  · rw [← frames.output]
    simp [stream]
  · rw [List.map_append, List.map_append, frames.requests]
    simp [head, body]

/-- The service reads on. -/
theorem read (carries : x.Carries codec output requests replies) {n : Nat}
    (cut : MayCut codec x.service.before.isNone output (x.service.read codec output n).2.offset) :
    ({ x with service := (x.service.read codec output n).2 } : ProxyLink).Carries codec output
      requests replies := by
  obtain ⟨asked, answered, frames⟩ := carries
  obtain rfl := frames.output
  exact ⟨asked, answered, rfl, frames.requests, frames.service.read cut.cutAllowed, frames.answers,
    frames.client, frames.replies⟩

/-- What the service has handled are the first of the requests. -/
theorem handled (carries : x.Carries codec output requests replies) :
    x.service.dispatched.map Dispatch.content <+: requests.map Message.content ∧
      (x.service.offset = output.length →
        x.service.dispatched.map Dispatch.content = requests.map Message.content) := by
  obtain ⟨asked, answered, frames⟩ := carries
  have contents : (asked.map (·.dispatch)).map Dispatch.content = requests.map Message.content := by
    have sized := congrArg (List.map fun c : CMsgHead × List UInt8 => (c.1.sized c.2.length, c.2))
      frames.requests
    rw [List.map_map, List.map_map] at sized
    rw [List.map_map]
    exact (List.map_congr_left fun f _ => f.dispatch_content).trans sized
  refine ⟨contents ▸ frames.service.dispatched_first.map _, fun all => ?_⟩
  rw [frames.service.dispatched_all (all.trans (congrArg List.length frames.output.symm)), contents]

/-- A proxy client that has read everything has handled all replies. -/
theorem delivered (carries : x.Carries codec output requests replies)
    (all : x.client.offset = x.answers.length) : replies = [] := by
  obtain ⟨asked, answered, frames⟩ := carries
  have whole := frames.client.dispatched_all (all.trans (congrArg List.length frames.answers.symm))
  have none := frames.replies
  rw [whole, List.append_right_eq_self, List.map_eq_nil_iff] at none
  exact none

/-- The service answers a request that it has handled, and echoes its `msg_id`. -/
theorem serve (carries : x.Carries codec output requests replies) {k : Nat} {d : Dispatch}
    (handled : x.service.dispatched[k]? = some d) {f : OutFrame codec} (accepted : f.Accepted)
    (echo : f.head.msgId = d.head.msgId) :
    ∃ m ∈ requests, ({ x with answers := x.answers ++ f.bytes } : ProxyLink).Carries codec output
      requests (replies ++ [m.answer f]) := by
  obtain ⟨asked, answered, frames⟩ := carries
  obtain ⟨rest, whole⟩ := frames.service.dispatched_first
  have short := (List.getElem?_eq_some_iff.mp handled).1
  have taken : (x.service.dispatched ++ rest)[k]? = some d :=
    (List.getElem?_append_left short).trans handled
  rw [whole, List.getElem?_map] at taken
  obtain ⟨g, there, rfl⟩ := Option.map_eq_some_iff.mp taken
  have entry := congrArg (·[k]?) frames.requests
  simp only [List.getElem?_map, there, Option.map_some] at entry
  obtain ⟨m, among, same⟩ := Option.map_eq_some_iff.mp entry.symm
  have header : g.dispatch.head = g.header := congrArg Prod.fst g.dispatch_content
  have echoed : m.head.msgId = f.header.msgId := by
    rw [header] at echo
    exact (congrArg (·.1.msgId) same).trans echo.symm
  have answer : (m.answer f).dispatch = f.dispatch := by
    have own : f.dispatch.head = f.header := congrArg Prod.fst f.dispatch_content
    rw [Message.dispatch, Message.answer, echoed]
    exact congrArg (fun head => (⟨head, f.dispatch.msg⟩ : Dispatch)) own.symm
  let frame : Frame codec := ⟨f, accepted⟩
  refine ⟨m, List.mem_of_getElem? among, asked, answered ++ [frame], frames.output,
    frames.requests, frames.service, ?_, frames.client.append [frame], ?_⟩
  · rw [← frames.answers]
    simp [stream, frame]
  · rw [List.map_append, List.map_append, ← List.append_assoc, frames.replies, List.map_singleton,
      answer]
    rfl

/-- The proxy client reads on, and handles the next of the replies. -/
theorem deliver (carries : x.Carries codec output requests replies) {n : Nat}
    (cut : MayCut codec x.client.before.isNone x.answers
      (x.client.read codec x.answers n).2.offset) :
    ∃ now later, replies = now ++ later ∧
      now.map Message.dispatch = (x.client.read codec x.answers n).1 ∧
      ({ x with client := (x.client.read codec x.answers n).2 } : ProxyLink).Carries codec output
        requests later := by
  obtain ⟨asked, answered, frames⟩ := carries
  obtain ⟨service, written, client⟩ := x
  obtain rfl : stream answered = written := frames.answers
  have reads := frames.client.read cut.cutAllowed
  have beyond := reads.dispatched_first
  dsimp only at beyond ⊢
  rw [Reader.read_dispatched, ← frames.replies, List.prefix_append_right_inj,
    List.prefix_iff_eq_take, ← List.map_take] at beyond
  set got := client.read codec (stream answered) n
  refine ⟨replies.take got.1.length, replies.drop got.1.length, (List.take_append_drop ..).symm,
    beyond.symm, asked, answered, frames.output, frames.requests, frames.service, rfl, reads, ?_⟩
  calc client.dispatched ++ got.1 ++ (replies.drop got.1.length).map Message.dispatch
      = client.dispatched ++ ((replies.take got.1.length).map Message.dispatch ++
          (replies.drop got.1.length).map Message.dispatch) := by rw [← beyond, List.append_assoc]
    _ = client.dispatched ++ replies.map Message.dispatch := by
        rw [← List.map_append, List.take_append_drop]
    _ = answered.map (·.dispatch) := frames.replies

end Carries

end ProxyLink

end MicroserviceFramework.Gateway
