import MicroserviceFramework.Gateway.Router
import Mathlib.Tactic.Common

/-!
# Whom a reply reaches

The proxy clients find a handle by its address, and no disconnect takes an address out of their
tables. So a reply goes to whatever is at that address when it arrives. That is the handle whose
request it answers exactly if that handle's connection has not ended.
-/

namespace MicroserviceFramework.Gateway

open Library Platform

/-! ## The tables of the proxy clients -/

namespace CServiceProxy

/-- The client has the pointer in its table. -/
def Registered (s : CServiceProxy) (id : ProxyId) (ev : Addr) : Prop :=
  ∃ c, s.client? id = some c ∧ c.callbackTasks ev = some ev

/-- Every pointer that is in a table stays there. -/
def Keeps (s s' : CServiceProxy) : Prop := ∀ id ev, s.Registered id ev → s'.Registered id ev

variable {s : CServiceProxy} {id : ProxyId} {c c' : CServiceProxyClient}

theorem Keeps.refl (s : CServiceProxy) : s.Keeps s := fun _ _ registered => registered

theorem client?_set (s : CServiceProxy) (id : ProxyId) (c : CServiceProxyClient) (id' : ProxyId) :
    (s.set id c).client? id' = if id' = id then (s.client? id).map fun _ => c else s.client? id' := by
  obtain ⟨name, i⟩ := id
  obtain ⟨name', i'⟩ := id'
  by_cases sameName : name' = name
  · subst sameName
    cases clients : s.clientMap name' with
    | none => simp [client?, set, clients]
    | some cs =>
      by_cases sameIdx : i' = i
      · subst sameIdx
        simp only [client?, set, Function.update_self, clients, Option.map_some, Option.bind_some,
          List.getElem?_set_self', if_true]
        rfl
      · simp [client?, set, clients, sameIdx, List.getElem?_set_ne (Ne.symm sameIdx)]
  · simp [client?, set, sameName]

theorem keeps_set (found : s.client? id = some c)
    (table : ∀ ev, c.callbackTasks ev = some ev → c'.callbackTasks ev = some ev) :
    s.Keeps (s.set id c') := by
  rintro id' ev ⟨d, client, registered⟩
  by_cases same : id' = id
  · subst same
    obtain rfl := Option.some.inj (found.symm.trans client)
    exact ⟨c', by simp [client?_set, found], table ev registered⟩
  · exact ⟨d, by simp [client?_set, same, client], registered⟩

theorem poll_found {clients : List CServiceProxyClient} {n cur last i : Nat}
    (found : poll clients n cur = (last, some (i, c))) : clients[i]? = some c := by
  induction n generalizing cur with
  | zero => simp [poll] at found
  | succ n ih =>
    simp only [poll] at found
    split at found
    · simp at found
    next client at_cur =>
      split at found
      · obtain ⟨rfl, rfl⟩ := Prod.mk.inj (Option.some.inj (Prod.mk.inj found).2)
        exact at_cur
      · exact ih found

theorem choose_found {serviceName : String} {last i : Nat}
    (found : s.choose serviceName = some (last, some (i, c))) :
    s.client? (serviceName, i) = some c := by
  obtain ⟨clients, listed, polled⟩ := Option.map_eq_some_iff.mp found
  simp [client?, listed, poll_found polled]

end CServiceProxy

theorem CServiceProxyClient.sendMsg_callbackTasks (codec : HeadCodec) (head : CMsgHead)
    (msg : CMsg) (ev : Addr) (written : List Bool) (c : CServiceProxyClient) :
    (c.sendMsg codec head msg ev written).2.callbackTasks =
      Function.update c.callbackTasks ev (some ev) := rfl

namespace CServiceProxy

variable {s : CServiceProxy} (codec : HeadCodec) (head : CMsgHead) (msg : CMsg) (ev : Addr)
  (written : List Bool)

theorem sendMsg_keeps (s : CServiceProxy) :
    s.Keeps (s.sendMsg codec head msg ev written).2 := by
  unfold sendMsg
  split
  · exact .refl s
  next lastIdx found chosen =>
    cases found with
    | none => exact .refl s
    | some entry =>
      obtain ⟨i, client⟩ := entry
      have at_i := choose_found chosen
      have kept : s.Keeps
          (s.set (head.serviceName, i) (client.sendMsg codec head msg ev written).2) := by
        refine keeps_set at_i fun ev' registered => ?_
        rw [CServiceProxyClient.sendMsg_callbackTasks]
        by_cases same : ev' = ev
        · simp [same]
        · simpa [same] using registered
      exact kept

/-- Where a request is sent, its handle is known from then on. -/
theorem sendMsg_registered {last i : Nat} {c : CServiceProxyClient}
    (found : s.choose head.serviceName = some (last, some (i, c))) :
    (s.sendMsg codec head msg ev written).2.Registered (head.serviceName, i) ev := by
  have at_i : s.client? (head.serviceName, i) = some c := choose_found found
  refine ⟨(c.sendMsg codec head msg ev written).2, ?_, ?_⟩
  · simp only [sendMsg, found, client?_set, if_true]
    exact congrArg (Option.map fun _ => _) at_i
  · simp [CServiceProxyClient.sendMsg_callbackTasks]

/-- The positions in a list do not change when a client is added. -/
theorem client?_discover_of_some (s : CServiceProxy) (serviceName ip : String) (port : Int)
    (lib : Libevent) {id : ProxyId} {c : CServiceProxyClient} (client : s.client? id = some c) :
    (s.discover serviceName ip port lib).client? id = some c := by
  simp only [discover]
  split
  · exact client
  · obtain ⟨name, i⟩ := id
    by_cases same : name = serviceName
    · subst same
      obtain ⟨clients, listed, at_i⟩ := Option.bind_eq_some_iff.mp client
      have short := (List.getElem?_eq_some_iff.mp at_i).1
      simp only at listed at_i
      simp [client?, listed, List.getElem?_append_left short, at_i]
    · simpa [client?, same] using client

theorem discover_keeps (s : CServiceProxy) (serviceName ip : String) (port : Int)
    (lib : Libevent) : s.Keeps (s.discover serviceName ip port lib) := by
  rintro id ev ⟨c, client, registered⟩
  exact ⟨c, s.client?_discover_of_some serviceName ip port lib client, registered⟩

/-- A client that is there after a round was there before, or is new and knows nobody. -/
theorem client?_discover (s : CServiceProxy) (serviceName ip : String) (port : Int) (lib : Libevent)
    {id : ProxyId} {c : CServiceProxyClient}
    (client : (s.discover serviceName ip port lib).client? id = some c) :
    s.client? id = some c ∨ c.callbackTasks = fun _ => none := by
  unfold discover at client
  dsimp only at client
  split at client
  · exact .inl client
  · obtain ⟨name, i⟩ := id
    by_cases same : name = serviceName
    · subst same
      rcases listed : s.clientMap name with _ | clients
      · simp only [client?, listed, Function.update_self, Option.getD_none, List.nil_append,
          Option.bind_some] at client
        obtain rfl := List.mem_singleton.mp (List.mem_of_getElem? client)
        exact .inr rfl
      · simp only [client?, listed, Function.update_self, Option.getD_some,
          Option.bind_some] at client
        by_cases short : i < clients.length
        · rw [List.getElem?_append_left short] at client
          exact .inl (by simp [client?, listed, client])
        · rw [List.getElem?_append_right (Nat.le_of_not_lt short)] at client
          obtain rfl := List.mem_singleton.mp (List.mem_of_getElem? client)
          exact .inr rfl
    · exact .inl (by simpa [client?, same] using client)

end CServiceProxy

/-! ## What is in flight -/

namespace Router

/-- The `msg_id` is the address of the handle of the connection it came from, and the proxy client
knows it. -/
def Known (s : Router) (m : Message) : Prop :=
  s.conns[m.origin]? = some m.head.msgId ∧ s.proxy.Registered m.proxy m.head.msgId

structure Inv (s : Router) : Prop where
  handle_at : ∀ addr handle, s.handles addr = some handle → s.conns[handle.conn]? = some addr
  requests : ∀ m ∈ s.requests, s.Known m
  replies : ∀ m ∈ s.replies, s.Known m

theorem Known.mono {s s' : Router} {m : Message} (known : s.Known m) (conns : s.conns <+: s'.conns)
    (proxy : s.proxy.Keeps s'.proxy) : s'.Known m := by
  refine ⟨?_, proxy _ _ known.2⟩
  obtain ⟨later, extends_⟩ := conns
  rw [← extends_, List.getElem?_append_left (List.getElem?_eq_some_iff.mp known.1).1]
  exact known.1

/-- Steps that add no message and no connection. -/
theorem Inv.of_subset {s s' : Router} (inv : s.Inv) (conns : s'.conns = s.conns)
    (proxy : s.proxy.Keeps s'.proxy)
    (handles : ∀ addr handle, s'.handles addr = some handle →
      ∃ old, s.handles addr = some old ∧ old.conn = handle.conn)
    (requests : s'.requests ⊆ s.requests) (replies : s'.replies ⊆ s.replies) : s'.Inv where
  handle_at addr handle at_addr := by
    obtain ⟨old, there, same⟩ := handles addr handle at_addr
    rw [conns, ← same]
    exact inv.handle_at addr old there
  requests m mem := (inv.requests m (requests mem)).mono (by simp [conns]) proxy
  replies m mem := (inv.replies m (replies mem)).mono (by simp [conns]) proxy

theorem live_some {s : Router} {addr : Addr} {handle : CRouterHandle}
    (live : s.live addr = some handle) : s.handles addr = some handle :=
  (Option.filter_eq_some_iff.mp live).1

/-- An update of one handle that leaves it whose it is, or deletes it. -/
theorem conn_update {handles : Addr → Option CRouterHandle} {addr : Addr} {handle : CRouterHandle}
    (at_addr : handles addr = some handle) {updated : Option CRouterHandle}
    (same : ∀ new, updated = some new → handle.conn = new.conn) (addr' : Addr)
    (new : CRouterHandle) (there : Function.update handles addr updated addr' = some new) :
    ∃ old, handles addr' = some old ∧ old.conn = new.conn := by
  by_cases here : addr' = addr
  · subst here
    rw [Function.update_self] at there
    exact ⟨handle, at_addr, same new there⟩
  · rw [Function.update_of_ne here] at there
    exact ⟨new, there, rfl⟩

variable {codec : HeadCodec} {s s' : Router}

theorem Inv.accept {addr : Addr} {lib : Libevent} (inv : s.Inv)
    (step : s.accept addr lib = some s') : s'.Inv := by
  unfold Router.accept at step
  split at step
  · simp at step
  next free =>
    obtain rfl := Option.some.inj step
    refine ⟨fun addr' handle there => ?_, fun m mem => ?_, fun m mem => ?_⟩
    · by_cases here : addr' = addr
      · subst here
        obtain rfl : _ = handle := by simpa using there
        simp
      · have old := inv.handle_at addr' handle (by simpa [here] using there)
        rw [List.getElem?_append_left (List.getElem?_eq_some_iff.mp old).1]
        exact old
    · exact (inv.requests m mem).mono (List.prefix_append _ _) (.refl _)
    · exact (inv.replies m mem).mono (List.prefix_append _ _) (.refl _)

theorem mem_sent {addr : Addr} {handle : CRouterHandle} {head : CMsgHead} {msg : CMsg}
    {written : List Bool} {m : Message} (mem : m ∈ s.sent addr handle head msg written) :
    m.origin = handle.conn ∧ m.head.msgId = addr ∧ ∃ last i client,
      s.proxy.choose head.serviceName = some (last, some (i, client)) ∧
        m.proxy = (head.serviceName, i) := by
  unfold sent at mem
  split at mem
  next last i client chosen =>
    split at mem
    · obtain rfl := List.mem_singleton.mp mem
      exact ⟨rfl, rfl, last, i, client, chosen, rfl⟩
    · simp at mem
  next => simp at mem

theorem Inv.request {addr : Addr} {head : CMsgHead} {msg : CMsg} {written : List Bool}
    (inv : s.Inv) (step : s.request codec addr head msg written = some s') : s'.Inv := by
  obtain ⟨handle, live, step⟩ := Option.bind_eq_some_iff.mp step
  obtain rfl := Option.some.inj step
  have keeps := s.proxy.sendMsg_keeps codec head msg addr written
  refine ⟨inv.handle_at, fun m mem => ?_, fun m mem => ?_⟩
  · rcases List.mem_append.mp mem with old | new
    · exact (inv.requests m old).mono (List.prefix_refl _) keeps
    · obtain ⟨origin, msgId, last, i, client, chosen, proxy⟩ := mem_sent new
      refine ⟨?_, ?_⟩
      · rw [origin, msgId]
        exact inv.handle_at addr handle (live_some live)
      · rw [msgId, proxy]
        exact CServiceProxy.sendMsg_registered codec head msg addr written chosen
  · exact (inv.replies m mem).mono (List.prefix_refl _) keeps

theorem Inv.handleEvent {addr : Addr} {what : What} (inv : s.Inv)
    (step : s.handleEvent addr what = some s') : s'.Inv := by
  obtain ⟨handle, live, step⟩ := Option.bind_eq_some_iff.mp step
  obtain rfl := Option.some.inj step
  refine inv.of_subset rfl (.refl _) (conn_update (live_some live) fun new there => ?_)
    (List.Subset.refl _) (List.Subset.refl _)
  obtain ⟨task, _, rfl⟩ := Option.map_eq_some_iff.mp there
  rfl

theorem Inv.serve {i : Nat} {head : CMsgHead} {msg : CMsg} (inv : s.Inv)
    (step : s.serve i head msg = some s') : s'.Inv := by
  obtain ⟨m, at_i, step⟩ := Option.bind_eq_some_iff.mp step
  obtain rfl := Option.some.inj step
  refine ⟨inv.handle_at, inv.requests, fun reply mem => ?_⟩
  rcases List.mem_append.mp mem with old | new
  · exact inv.replies reply old
  · obtain rfl := List.mem_singleton.mp new
    exact inv.requests m (List.mem_of_getElem? at_i)

theorem Inv.reply {i : Nat} {written : List Bool} (inv : s.Inv)
    (step : s.reply codec i written = some s') : s'.Inv := by
  obtain ⟨m, at_i, step⟩ := Option.bind_eq_some_iff.mp step
  dsimp only at step
  split at step
  · obtain rfl := Option.some.inj step
    exact inv.of_subset rfl (.refl _) (fun _ handle there => ⟨handle, there, rfl⟩)
      (List.Subset.refl _) List.eraseIdx_subset
  next ev _ =>
    obtain ⟨handle, there, step⟩ := Option.bind_eq_some_iff.mp step
    obtain rfl := Option.some.inj step
    refine inv.of_subset rfl (.refl _) (conn_update there fun new same => ?_)
      (List.Subset.refl _) List.eraseIdx_subset
    obtain rfl := Option.some.inj same
    rfl

theorem Inv.proxyEvent {id : ProxyId} {what : What} (inv : s.Inv)
    (step : s.proxyEvent id what = some s') : s'.Inv := by
  obtain ⟨c, found, step⟩ := Option.bind_eq_some_iff.mp step
  obtain ⟨task, _, step⟩ := Option.bind_eq_some_iff.mp step
  obtain rfl := Option.some.inj step
  have client := (Option.filter_eq_some_iff.mp found).1
  exact inv.of_subset rfl (CServiceProxy.keeps_set client fun _ registered => registered)
    (fun _ handle there => ⟨handle, there, rfl⟩) (List.filter_subset_self _)
    (List.filter_subset_self _)

theorem Inv.reconnect {id : ProxyId} {lib : Libevent} (inv : s.Inv)
    (step : s.reconnect id lib = some s') : s'.Inv := by
  obtain ⟨c, client, step⟩ := Option.bind_eq_some_iff.mp step
  obtain rfl := Option.some.inj step
  exact inv.of_subset rfl (CServiceProxy.keeps_set client fun _ registered => registered)
    (fun _ handle there => ⟨handle, there, rfl⟩) (List.Subset.refl _) (List.Subset.refl _)

/-- Every event keeps it. -/
theorem machine_preserves_inv : (machine codec).Preserves (fun _ _ => True) Inv := by
  intro s event s' inv _ step
  cases event with
  | accept => exact inv.accept step
  | request => exact inv.request step
  | handleEvent => exact inv.handleEvent step
  | serve => exact inv.serve step
  | reply => exact inv.reply step
  | proxyEvent => exact inv.proxyEvent step
  | reconnect => exact inv.reconnect step
  | discover serviceName ip port lib =>
    obtain rfl := Option.some.inj step
    exact inv.of_subset rfl (s.proxy.discover_keeps serviceName ip port lib)
      (fun _ handle there => ⟨handle, there, rfl⟩) (List.Subset.refl _) (List.Subset.refl _)

theorem inv_init : ({} : Router).Inv := by constructor <;> simp

/-! ## Isolation -/

/-- The connection is open: there is a handle for it. -/
def Open (s : Router) (conn : Nat) : Prop :=
  ∃ addr handle, s.handles addr = some handle ∧ handle.conn = conn

/-- A reply that is passed on goes to a handle that exists, and to the connection whose request it
answers. -/
def Isolated (s : Router) : Event → Prop
  | .reply i _ => ∀ m ∈ s.replies[i]?, ∀ ev ∈ s.target m,
      (s.handles ev).map (·.conn) = some m.origin
  | _ => True

instance (s : Router) : ∀ event, Decidable (s.Isolated event)
  | .reply i _ =>
    have (m : Message) : Decidable (∀ ev ∈ s.target m, (s.handles ev).map (·.conn) = some m.origin) :=
      Option.decidableForallMem _
    Option.decidableForallMem s.replies[i]?
  | .accept .. | .request .. | .handleEvent .. | .serve .. | .proxyEvent .. | .reconnect ..
  | .discover .. => .isTrue trivial

/-- A reply arrives while the connection whose request it answers is open. -/
def InTime (s : Router) : Event → Prop
  | .reply i _ => ∀ m ∈ s.replies[i]?, s.Open m.origin
  | _ => True

theorem Known.target {m : Message} (known : s.Known m) : s.target m = some m.head.msgId := by
  obtain ⟨_, c, client, registered⟩ := known
  simp [Router.target, client, registered]

/-- A connection that is open has its handle where it was allocated. -/
theorem Inv.conn_iff (inv : s.Inv) {m : Message} (known : s.Known m) :
    (s.handles m.head.msgId).map (·.conn) = some m.origin ↔ s.Open m.origin := by
  rw [Option.map_eq_some_iff]
  constructor
  · rintro ⟨handle, there, own⟩
    exact ⟨_, handle, there, own⟩
  · rintro ⟨addr, handle, there, own⟩
    have at_addr := inv.handle_at addr handle there
    rw [own, known.1] at at_addr
    obtain rfl := Option.some.inj at_addr
    exact ⟨handle, there, own⟩

theorem Inv.isolated_iff (inv : s.Inv) (event : Event) : s.Isolated event ↔ s.InTime event := by
  cases event with
  | reply i written =>
    refine forall₂_congr fun m at_i => ?_
    have known := inv.replies m (List.mem_of_getElem? at_i)
    simp only [known.target, Option.mem_some_iff, forall_eq']
    exact inv.conn_iff known
  | _ => exact Iff.rfl

/-- Along every run from the start of the gateway, the replies reach the connections whose requests
they answer exactly if none of them arrives after its connection has ended. -/
theorem replies_isolated_iff (codec : HeadCodec) (events : List Event) :
    (machine codec).Along Isolated {} events ↔ (machine codec).Along InTime {} events :=
  (machine codec).along_congr machine_preserves_inv (fun _ event inv => inv.isolated_iff event)
    inv_init events

/-! ## A client that does not wait -/

/-- A client asks for a directory and disconnects before the answer arrives. -/
def hangUp : List Event :=
  [.accept 64 {}, .discover "dir" "127.0.0.1" 20011 {},
    .proxyEvent ("dir", 0) { connected := true },
    .request 64 { serviceName := "dir" } (.ofBytes [1]) [], .serve 0 {} (.ofBytes [2]),
    .handleEvent 64 { eof := true }]

open Library.Wire.Reader

/-- The answer goes to a deleted handle, or to the next client that is given its address. -/
theorem reply_not_isolated :
    ¬(machine CMsgHead.codec).Along Isolated {} (hangUp ++ [.reply 0 []]) ∧
    ¬(machine CMsgHead.codec).Along Isolated {} (hangUp ++ [.accept 64 {}, .reply 0 []]) := by
  decide +kernel

end Router

end MicroserviceFramework.Gateway
