import MicroserviceFramework.Auth.Login
import MicroserviceFramework.Platform.Sender
import Mathlib.Logic.Function.Basic

/-!
# Routing requests to services

`CServiceProxyClient` is the gateway's connection to one service, and `CServiceProxy` has the
lists of them. A client's handle is known by its address, which goes to the service and back as
the `msg_id` of the header. Proxy clients are never deleted, so a service name and a position in
its list identify one.
-/

namespace MicroserviceFramework.Gateway

open Platform
open Library.Wire.Kind (utf8)
open Auth (cstr)

def API_GATEWAY_NAME : String := "GW"

/-- A pointer as `(long long)ev`. -/
abbrev Addr := Int64

structure CServiceProxyClient where
  task : CComeTask := {}
  serverPort : Int := 0
  callbackTasks : Addr → Option Addr := fun _ => none

/-- The bytes of `serverIp_`, as `strncpy` fills them. -/
def serverIpField (ip : String) : List UInt8 := (utf8 ip ++ List.replicate 16 0).take 16

namespace CServiceProxyClient

/-- `getServerIp` as a C string. With no NUL in the field it goes on in the next member, which is
`serverPort_`; that has one, since a port is below 2^16. -/
def getServerIp (c : CServiceProxyClient) : List UInt8 :=
  (serverIpField c.task.serverIp ++ le32 (c.serverPort % 2 ^ 32).toNat).takeWhile (· ≠ 0)

def regEvent (ev : Addr) (c : CServiceProxyClient) : CServiceProxyClient :=
  { c with callbackTasks := Function.update c.callbackTasks ev (some ev) }

def delEvent (ev : Addr) (c : CServiceProxyClient) : CServiceProxyClient :=
  { c with callbackTasks := Function.update c.callbackTasks ev none }

/-- The header as it goes to the service. -/
def headTo (head : CMsgHead) (ev : Addr) : CMsgHead := { head with msgId := ev }

def sendMsg (codec : HeadCodec) (head : CMsgHead) (msg : CMsg) (ev : Addr) (written : List Bool)
    (c : CServiceProxyClient) : Bool × CServiceProxyClient :=
  let c := c.regEvent ev
  let (ret, task) := c.task.sendMsg codec (some (headTo head ev)) (some msg) written
  (ret, { c with task := task })

end CServiceProxyClient

/-- The service and the position in its list. -/
abbrev ProxyId := String × Nat

structure CServiceProxy where
  clientMap : String → Option (List CServiceProxyClient) := fun _ => none
  clientMapLastIdx : String → Nat := fun _ => 0
  clientCbs : Addr → Option ProxyId := fun _ => none

namespace CServiceProxy

/-- The client behind a pointer. -/
def client? (s : CServiceProxy) (id : ProxyId) : Option CServiceProxyClient :=
  (s.clientMap id.1).bind (·[id.2]?)

/-- The client behind a pointer changes. -/
def set (s : CServiceProxy) (id : ProxyId) (c : CServiceProxyClient) : CServiceProxy :=
  { s with clientMap := Function.update s.clientMap id.1 ((s.clientMap id.1).map (·.set id.2 c)) }

/-- The loop of `sendMsg`: from the one after `curIdx` on, at most `n` clients are asked whether
they are connected. It gives the last index tried, and the client if one is connected. -/
def poll (clients : List CServiceProxyClient) :
    Nat → Nat → Nat × Option (Nat × CServiceProxyClient)
  | 0, curIdx => (curIdx, none)
  | n + 1, curIdx =>
    let curIdx := (curIdx + 1) % clients.length
    match clients[curIdx]? with
    | none => (curIdx, none)
    | some client =>
      if client.task.isConnected then (curIdx, some (curIdx, client)) else poll clients n curIdx

/-- The polling of the clients for a service, if there are any. -/
def choose (s : CServiceProxy) (serviceName : String) :
    Option (Nat × Option (Nat × CServiceProxyClient)) :=
  (s.clientMap serviceName).map fun clients =>
    poll clients clients.length (s.clientMapLastIdx serviceName)

def sendMsg (codec : HeadCodec) (head : CMsgHead) (msg : CMsg) (ev : Addr) (written : List Bool)
    (s : CServiceProxy) : Bool × CServiceProxy :=
  match s.choose head.serviceName with
  | none => (false, s)
  | some (lastIdx, found) =>
    let s := { s with
      clientMapLastIdx := Function.update s.clientMapLastIdx head.serviceName lastIdx }
    match found with
    | none => (false, s)
    | some (i, client) =>
      let s := { s with clientCbs := Function.update s.clientCbs ev (some (head.serviceName, i)) }
      let (ret, client) := client.sendMsg codec head msg ev written
      (ret, s.set (head.serviceName, i) client)

/-- The pointer is taken out of the table of the client that was used last. Without one the code
goes on with an end iterator, which is undefined. -/
def delEvent (ev : Addr) (s : CServiceProxy) : Option CServiceProxy :=
  if ev = 0 then some s
  else do
    let id ← s.clientCbs ev
    let c ← s.client? id
    some (s.set id (c.delEvent ev))

theorem delEvent_eq_some {ev : Addr} (ne : ev ≠ 0) {s s' : CServiceProxy} :
    s.delEvent ev = some s' ↔ ∃ id c, s.clientCbs ev = some id ∧ s.client? id = some c ∧
      s' = s.set id (c.delEvent ev) := by
  simp only [delEvent, if_neg ne, Option.bind_eq_bind, Option.bind_eq_some_iff, Option.some.injEq]
  exact ⟨fun ⟨id, last, c, client, same⟩ => ⟨id, c, last, client, same.symm⟩,
    fun ⟨id, c, last, client, same⟩ => ⟨id, last, c, client, same.symm⟩⟩

/-- A service of the registry, in `mainFunc`: one that is not in the list yet is added to it and
starts to connect. The gateway does not connect to itself. -/
def discover (serviceName ip : String) (port : Int) (lib : Libevent) (s : CServiceProxy) :
    CServiceProxy :=
  let clients := (s.clientMap serviceName).getD []
  if serviceName = API_GATEWAY_NAME ∨
      clients.any fun c => utf8 ip = c.getServerIp ∧ port = c.serverPort then s
  else
    let task : CComeTask := { serverIp := cstr ip, autoDelete := false }
    { s with
      clientMap := Function.update s.clientMap serviceName
        (some (clients ++ [{ task := (task.init lib).2, serverPort := port }]))
      clientMapLastIdx := Function.update s.clientMapLastIdx serviceName 0 }

end CServiceProxy

end MicroserviceFramework.Gateway
