import MicroserviceFramework.Gateway.Isolation

/-!
# Calls to the proxy

`CServiceProxy` on its own: connections call `sendMsg` and `delEvent` in any order, `mainFunc` adds
proxy clients, and these lose their connections and regain them. What `sendMsg` does is stated once
here, by the client that it chooses.
-/

namespace MicroserviceFramework.Gateway

open Library Platform

namespace CServiceProxy

inductive Event where
  | sendMsg (head : CMsgHead) (msg : CMsg) (ev : Addr) (written : List Bool)
  | delEvent (ev : Addr)
  /-- A service that `mainFunc` finds in the registry. -/
  | discover (serviceName ip : String) (port : Int) (lib : Libevent)
  | proxyEvent (id : ProxyId) (what : What)
  /-- A turn of the reconnect loop, or of the client's own timer. -/
  | reconnect (id : ProxyId) (lib : Libevent)

/-- The task behind a proxy client changes. -/
def setTask (s : CServiceProxy) (id : ProxyId) (c : CServiceProxyClient) (task : CComeTask) :
    CServiceProxy :=
  s.set id { c with task := task }

def step (codec : HeadCodec) (s : CServiceProxy) : Event → Option CServiceProxy
  | .sendMsg head msg ev written => some (s.sendMsg codec head msg ev written).2
  | .delEvent ev => s.delEvent ev
  | .discover serviceName ip port lib => some (s.discover serviceName ip port lib)
  | .proxyEvent id what => do
    let c ← (s.client? id).filter (·.task.bev.isSome)
    let task ← c.task.eventCb what
    some (s.setTask id c task)
  | .reconnect id lib => do
    let c ← s.client? id
    some (s.setTask id c (c.task.autoConnectTimerCb lib))

def machine (codec : HeadCodec) : Machine CServiceProxy Event := ⟨step codec⟩

/-- The client that a message for the service goes to, and its position in the list. -/
def chosen (s : CServiceProxy) (serviceName : String) : Option (Nat × CServiceProxyClient) :=
  (s.choose serviceName).bind (·.2)

theorem client?_chosen {s : CServiceProxy} {serviceName : String} {i : Nat}
    {c : CServiceProxyClient} (found : s.chosen serviceName = some (i, c)) :
    s.client? (serviceName, i) = some c := by
  obtain ⟨⟨last, entry⟩, choice, rfl⟩ := Option.bind_eq_some_iff.mp found
  exact choose_found choice

section

variable (codec : HeadCodec) (head : CMsgHead) (msg : CMsg) (ev : Addr) (written : List Bool)
  {s : CServiceProxy}

/-- Without a client nothing is sent, and nothing is registered. -/
theorem sendMsg_none (nobody : s.chosen head.serviceName = none) :
    (s.sendMsg codec head msg ev written).1 = false ∧
      (s.sendMsg codec head msg ev written).2.clientMap = s.clientMap ∧
      (s.sendMsg codec head msg ev written).2.clientCbs = s.clientCbs := by
  unfold chosen at nobody
  unfold sendMsg
  rcases choice : s.choose head.serviceName with _ | ⟨last, _ | entry⟩
  · exact ⟨rfl, rfl, rfl⟩
  · exact ⟨rfl, rfl, rfl⟩
  · rw [choice] at nobody
    cases nobody

/-- The chosen client sends the message, and the connection is registered. -/
theorem sendMsg_some {i : Nat} {c : CServiceProxyClient}
    (found : s.chosen head.serviceName = some (i, c)) :
    (s.sendMsg codec head msg ev written).1 = (c.sendMsg codec head msg ev written).1 ∧
      (s.sendMsg codec head msg ev written).2.clientMap =
        (s.set (head.serviceName, i) (c.sendMsg codec head msg ev written).2).clientMap ∧
      (s.sendMsg codec head msg ev written).2.clientCbs =
        Function.update s.clientCbs ev (some (head.serviceName, i)) := by
  obtain ⟨⟨last, entry⟩, choice, rfl⟩ := Option.bind_eq_some_iff.mp found
  unfold sendMsg
  rw [choice]
  exact ⟨rfl, rfl, rfl⟩

theorem sendMsg_lastIdx :
    (s.sendMsg codec head msg ev written).2.clientMapLastIdx =
      match s.choose head.serviceName with
      | none => s.clientMapLastIdx
      | some (last, _) => Function.update s.clientMapLastIdx head.serviceName last := by
  unfold sendMsg
  rcases s.choose head.serviceName with _ | ⟨last, _ | entry⟩ <;> rfl

/-- The clients depend on the lists alone. -/
theorem client?_congr {s' : CServiceProxy} (same : s'.clientMap = s.clientMap) (id : ProxyId) :
    s'.client? id = s.client? id := by
  rw [client?, client?, same]

/-- The chosen client is what its own `sendMsg` makes of it, and the others are as they were. -/
theorem client?_sendMsg {i : Nat} {c : CServiceProxyClient}
    (found : s.chosen head.serviceName = some (i, c)) (id : ProxyId) :
    (s.sendMsg codec head msg ev written).2.client? id =
      if id = (head.serviceName, i) then some (c.sendMsg codec head msg ev written).2
      else s.client? id := by
  have lists := (sendMsg_some codec head msg ev written found).2.1
  rw [client?_congr lists, client?_set, client?_chosen found, Option.map_some]

end

@[simp] theorem discover_clientCbs (s : CServiceProxy) (serviceName ip : String) (port : Int)
    (lib : Libevent) : (s.discover serviceName ip port lib).clientCbs = s.clientCbs := by
  unfold discover
  dsimp only
  split <;> rfl

end CServiceProxy

end MicroserviceFramework.Gateway
