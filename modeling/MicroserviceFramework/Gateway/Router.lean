import MicroserviceFramework.Gateway.CServiceProxy
import MicroserviceFramework.Library.Machine

/-!
# The gateway

Client connections, the proxy clients, and what is in flight between the gateway and the
services. The services are outside: they may answer a request any number of times, and their
answers echo its `msg_id`. Callbacks run one at a time, in any order.

`Request.origin` and `CRouterHandle.conn` number the client connections in the order in which
they were accepted, and `conns` is where their handles were allocated. The code knows nothing of
these; a handle's address is free again once it is deleted.
-/

namespace MicroserviceFramework.Gateway

open Library Platform

structure CRouterHandle where
  conn : Nat
  task : CComeTask

/-- A message between a proxy client and its service, in either direction. -/
structure Message where
  proxy : ProxyId
  head : CMsgHead
  msg : CMsg
  /-- The client connection whose request it is or answers. -/
  origin : Nat

structure Router where
  handles : Addr → Option CRouterHandle := fun _ => none
  conns : List Addr := []
  proxy : CServiceProxy := {}
  requests : List Message := []
  replies : List Message := []

inductive Event where
  /-- A client connects, and its handle is allocated at an address. -/
  | accept (addr : Addr) (lib : Libevent)
  /-- A handle has received a message. -/
  | request (addr : Addr) (head : CMsgHead) (msg : CMsg) (written : List Bool)
  | handleEvent (addr : Addr) (what : What)
  /-- A service answers the `i`-th request. -/
  | serve (i : Nat) (head : CMsgHead) (msg : CMsg)
  /-- A proxy client has received the `i`-th reply. -/
  | reply (i : Nat) (written : List Bool)
  | proxyEvent (id : ProxyId) (what : What)
  /-- A turn of the reconnect loop, or of the client's own timer. -/
  | reconnect (id : ProxyId) (lib : Libevent)
  | discover (serviceName ip : String) (port : Int) (lib : Libevent)

namespace Router

variable (codec : HeadCodec)

/-- The handle at an address, if its connection is up: only then has it callbacks. -/
def live (s : Router) (addr : Addr) : Option CRouterHandle :=
  (s.handles addr).filter (·.task.bev.isSome)

/-- `createServiceHandle` and `init`. -/
def accept (addr : Addr) (lib : Libevent) (s : Router) : Option Router :=
  match s.handles addr with
  | some _ => none
  | none =>
    let handle := ⟨s.conns.length, (({} : CComeTask).init lib).2⟩
    some { s with
      handles := Function.update s.handles addr (some handle)
      conns := s.conns ++ [addr] }

/-- The request that a call of `CServiceProxy::sendMsg` puts on its way, unless a write fails. -/
def sent (s : Router) (addr : Addr) (handle : CRouterHandle) (head : CMsgHead) (msg : CMsg)
    (written : List Bool) : List Message :=
  match s.proxy.choose head.serviceName with
  | some (_, some (i, client)) =>
    if client.task.bev.isSome ∧ false ∉ written then
      [⟨(head.serviceName, i), CServiceProxyClient.headTo head addr, msg, handle.conn⟩]
    else []
  | _ => []

/-- `CRouterHandle::readCb`. -/
def request (addr : Addr) (head : CMsgHead) (msg : CMsg) (written : List Bool) (s : Router) :
    Option Router := do
  let handle ← s.live addr
  some { s with
    proxy := (s.proxy.sendMsg codec head msg addr written).2
    requests := s.requests ++ s.sent addr handle head msg written }

/-- `CComeTask::eventCb` of a handle. It ends in `CComeTask::closeBev`, which no subclass
overrides: a deleted handle leaves its address free, and the proxy clients are not told.
`CRouterHandle::close`, which would tell them, is reached by no callback. -/
def handleEvent (addr : Addr) (what : What) (s : Router) : Option Router := do
  let handle ← s.live addr
  some { s with
    handles := Function.update s.handles addr
      ((handle.task.eventCb what).map fun task => { handle with task := task }) }

def serve (i : Nat) (head : CMsgHead) (msg : CMsg) (s : Router) : Option Router := do
  let m ← s.requests[i]?
  some { s with
    replies := s.replies ++ [{ m with head := { head with msgId := m.head.msgId }, msg := msg }] }

/-- The handle to which `CServiceProxyClient::readCb` passes a reply on. -/
def target (s : Router) (m : Message) : Option Addr :=
  (s.proxy.client? m.proxy).bind fun c => c.callbackTasks m.head.msgId

/-- `CServiceProxyClient::readCb`. With the pointer of a deleted handle the call is undefined. -/
def reply (i : Nat) (written : List Bool) (s : Router) : Option Router := do
  let m ← s.replies[i]?
  let s := { s with replies := s.replies.eraseIdx i }
  match s.target m with
  | none => some s
  | some ev =>
    let handle ← s.handles ev
    let task := (handle.task.sendMsg codec (some m.head) (some m.msg) written).2
    some { s with
      handles := Function.update s.handles ev (some { handle with task := task }) }

/-- What is in flight on a connection is lost with it. -/
def proxyEvent (id : ProxyId) (what : What) (s : Router) : Option Router := do
  let c ← (s.proxy.client? id).filter (·.task.bev.isSome)
  let task ← c.task.eventCb what
  let kept (m : Message) : Bool := ¬(what.ending ∧ m.proxy = id)
  some { s with
    proxy := s.proxy.set id { c with task := task }
    requests := s.requests.filter kept
    replies := s.replies.filter kept }

def reconnect (id : ProxyId) (lib : Libevent) (s : Router) : Option Router := do
  let c ← s.proxy.client? id
  some { s with proxy := s.proxy.set id { c with task := c.task.autoConnectTimerCb lib } }

def step (s : Router) : Event → Option Router
  | .accept addr lib => s.accept addr lib
  | .request addr head msg written => s.request codec addr head msg written
  | .handleEvent addr what => s.handleEvent addr what
  | .serve i head msg => s.serve i head msg
  | .reply i written => s.reply codec i written
  | .proxyEvent id what => s.proxyEvent id what
  | .reconnect id lib => s.reconnect id lib
  | .discover serviceName ip port lib =>
    some { s with proxy := s.proxy.discover serviceName ip port lib }

def machine : Machine Router Event := ⟨step codec⟩

end Router

end MicroserviceFramework.Gateway
