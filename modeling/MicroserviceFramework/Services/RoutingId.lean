import MicroserviceFramework.Gateway.Isolation
import MicroserviceFramework.Services.Pairing

/-!
# The way back through the gateway

The gateway finds the client of a reply by its `msg_id`, so a handler must send back the one it
got. The directory and the login do, since they answer with the header of the request. The others
answer with a header of their own, whose `msg_id` is zero; no client is at that address, and the
gateway drops the reply.
-/

namespace MicroserviceFramework.Gateway

open Library Platform

/-! ## Nobody is at the null address -/

namespace CServiceProxy

/-- No client has the pointer in its table. -/
def Unregistered (s : CServiceProxy) (ev : Addr) : Prop :=
  ∀ id c, s.client? id = some c → c.callbackTasks ev = none

variable {s : CServiceProxy} {ev : Addr}

theorem Unregistered.set (none_there : s.Unregistered ev) {c : CServiceProxyClient}
    (table : c.callbackTasks ev = none) (id : ProxyId) : (s.set id c).Unregistered ev := by
  intro id' c' client
  rw [client?_set] at client
  split at client
  · obtain ⟨_, _, rfl⟩ := Option.map_eq_some_iff.mp client
    exact table
  · exact none_there id' c' client

theorem Unregistered.sendMsg (none_there : s.Unregistered ev) {other : Addr} (ne : other ≠ ev)
    (codec : HeadCodec) (head : CMsgHead) (msg : CMsg) (written : List Bool) :
    (s.sendMsg codec head msg other written).2.Unregistered ev := by
  unfold CServiceProxy.sendMsg
  split
  · exact none_there
  next lastIdx found chosen =>
    cases found with
    | none => exact none_there
    | some entry =>
      obtain ⟨i, client⟩ := entry
      have before := none_there _ _ (choose_found chosen)
      refine Unregistered.set (s := { s with
        clientMapLastIdx := Function.update s.clientMapLastIdx head.serviceName lastIdx
        clientCbs := Function.update s.clientCbs other (some (head.serviceName, i)) })
        none_there ?_ _
      rw [CServiceProxyClient.sendMsg_callbackTasks, Function.update_of_ne ne.symm]
      exact before

theorem Unregistered.discover (none_there : s.Unregistered ev) (serviceName ip : String)
    (port : Int) (lib : Libevent) : (s.discover serviceName ip port lib).Unregistered ev := by
  intro id c client
  rcases s.client?_discover serviceName ip port lib client with old | new
  · exact none_there id c old
  · rw [new]

end CServiceProxy

/-- Handles are not allocated at the null address. -/
def Event.Allocated : Event → Prop
  | .accept addr _ => addr ≠ 0
  | _ => True

namespace Router

variable {codec : HeadCodec}

structure NullFree (s : Router) : Prop where
  handles : s.handles 0 = none
  tables : s.proxy.Unregistered 0

/-- A handle that is there is not at the null address. -/
theorem NullFree.ne_zero {s : Router} (free : s.NullFree) {addr : Addr} {handle : CRouterHandle}
    (there : s.handles addr = some handle) : addr ≠ 0 := by
  rintro rfl
  rw [free.handles] at there
  cases there

/-- A change of a handle that is there. -/
theorem NullFree.update {s : Router} (free : s.NullFree) {addr : Addr} {handle : CRouterHandle}
    (there : s.handles addr = some handle) (updated : Option CRouterHandle) :
    Function.update s.handles addr updated 0 = none := by
  rw [Function.update_of_ne (free.ne_zero there).symm]
  exact free.handles

theorem machine_preserves_nullFree :
    (machine codec).Preserves (fun _ event => event.Allocated) NullFree := by
  intro s event s' free allocated step
  have ⟨handles, tables⟩ := free
  cases event with
  | accept addr lib =>
    simp only [machine, Router.step, Router.accept] at step
    split at step
    · cases step
    · obtain rfl := Option.some.inj step
      exact ⟨(Function.update_of_ne (Ne.symm allocated) ..).trans handles, tables⟩
  | request addr head msg written =>
    obtain ⟨handle, live, step⟩ := Option.bind_eq_some_iff.mp step
    obtain rfl := Option.some.inj step
    have used := free.ne_zero (live_some live)
    exact ⟨handles, tables.sendMsg used codec head msg written⟩
  | handleEvent addr what =>
    obtain ⟨handle, live, step⟩ := Option.bind_eq_some_iff.mp step
    obtain rfl := Option.some.inj step
    exact ⟨free.update (live_some live) _, tables⟩
  | serve i head msg =>
    obtain ⟨m, -, step⟩ := Option.bind_eq_some_iff.mp step
    obtain rfl := Option.some.inj step
    exact ⟨handles, tables⟩
  | reply i written =>
    obtain ⟨m, -, step⟩ := Option.bind_eq_some_iff.mp step
    dsimp only at step
    split at step
    · obtain rfl := Option.some.inj step
      exact ⟨handles, tables⟩
    · obtain ⟨handle, there, step⟩ := Option.bind_eq_some_iff.mp step
      obtain rfl := Option.some.inj step
      exact ⟨free.update there _, tables⟩
  | proxyEvent id what =>
    obtain ⟨c, found, step⟩ := Option.bind_eq_some_iff.mp step
    obtain ⟨task, -, step⟩ := Option.bind_eq_some_iff.mp step
    obtain rfl := Option.some.inj step
    have client := (Option.filter_eq_some_iff.mp found).1
    exact ⟨handles, tables.set (c := { c with task := task }) (tables id c client) id⟩
  | reconnect id lib =>
    obtain ⟨c, client, step⟩ := Option.bind_eq_some_iff.mp step
    obtain rfl := Option.some.inj step
    exact ⟨handles, tables.set (c := { c with task := c.task.autoConnectTimerCb lib })
      (tables id c client) id⟩
  | discover serviceName ip port lib =>
    obtain rfl := Option.some.inj step
    exact ⟨handles, tables.discover serviceName ip port lib⟩

theorem nullFree_init : ({} : Router).NullFree := ⟨rfl, fun _ _ client => by cases client⟩

/-- A reply is passed on to the handle of the connection whose request it answers. -/
def Answered (s : Router) (reply : Message) : Prop :=
  ∃ ev ∈ s.target reply, (s.handles ev).map (·.conn) = some reply.origin

/-- What becomes of a reply to a request in flight, by the `msg_id` it comes back with. -/
theorem answered_of_request {events : List Event} {s : Router}
    (allocated : ∀ event ∈ events, event.Allocated)
    (run : (machine codec).run {} events = some s) {m : Message} (sent : m ∈ s.requests)
    (head : CMsgHead) :
    (head.msgId = m.head.msgId →
      (s.Answered { m with head := head } ↔ s.Open m.origin) ∧
        s.target { m with head := head } ≠ none) ∧
    (head.msgId = 0 → s.target { m with head := head } = none) := by
  have inv : s.Inv := (machine codec).run_invariant_always machine_preserves_inv inv_init run
  have free := (machine codec).run_invariant machine_preserves_nullFree nullFree_init
    ((machine codec).along_of_mem allocated _) run
  refine ⟨fun same => ?_, fun zero => ?_⟩
  · have known : s.Known { m with head := head } := by
      unfold Known
      rw [same]
      exact inv.requests m sent
    refine ⟨?_, by simp [known.target]⟩
    simp only [Answered, known.target, Option.mem_some_iff, exists_eq_left']
    exact inv.conn_iff known
  · rcases client : s.proxy.client? m.proxy with _ | c
    · simp [target, client]
    · simpa [target, client, zero] using free.tables m.proxy c client

end Router

end MicroserviceFramework.Gateway

namespace MicroserviceFramework.Services

open Library Platform CMsgType Gateway

namespace Handler

/-- The handler answers with the header of the request. -/
def keepsHead : Handler → Bool
  | dirReqCb | loginReq => true
  | _ => false

end Handler

namespace Handler

section

variable (env : Env) (head : CMsgHead) (msg : CMsg) (s : State)

/-- The replies of a handler that reuses the header, or those of one that does not. -/
def Headed (h : Handler) (head : CMsgHead) (replies : Replies) : Prop :=
  ∀ reply ∈ replies, reply.1 = if h.keepsHead then { head with msgType := h.resType } else
    { msgType := reply.1.msgType }

theorem headed_nil (h : Handler) : h.Headed head [] := by
  intro reply mem
  cases mem

theorem headed_fresh {h : Handler} (own : h.keepsHead = false) {M : Type} (payload : M → Payload)
    (type : CMsgType) (message : M) :
    h.Headed head (.of payload (some (sendMsg type message))) := by
  intro reply mem
  obtain rfl := List.mem_singleton.mp mem
  rw [own]
  rfl

theorem headed_kept {h : Handler} (kept : h.keepsHead = true) {M : Type} (payload : M → Payload)
    (message : M) :
    h.Headed head (.of payload (some ({ head with msgType := h.resType }, message))) := by
  intro reply mem
  obtain rfl := List.mem_singleton.mp mem
  rw [kept]
  rfl

variable [Library.Wire.Protobuf]

theorem run_headed (h : Handler) : h.Headed head (h.run env head msg s).2 := by
  cases h with
  | dirReqCb =>
    rw [run, result_replies, Services.dirReqCb]
    split
    · exact headed_nil head _
    · split
      · exact headed_nil head _
      · exact headed_kept (h := dirReqCb) head rfl _ _
  | loginReq =>
    rw [run, result_replies, Auth.loginReq]
    split
    · exact headed_nil head _
    · split
      · exact headed_kept (h := loginReq) head rfl _ _
      · exact headed_nil head _
  | addUserReq =>
    obtain ⟨res, reply⟩ := addUserReq_reply env.addUser s.authDb msg.bytes
    rw [run, result_replies, reply]
    exact headed_fresh head rfl _ _ _
  | uploadConfig =>
    obtain ⟨res, reply⟩ := uploadConfig_reply env.collation env.config env.clientIp msg.bytes s.dao
    rw [run, result_replies, reply]
    exact headed_fresh head rfl _ _ _
  | downloadConfig =>
    rw [run, Config.CConfigHandle.downloadConfig]
    split
    · exact headed_nil head _
    · exact headed_fresh head rfl _ _ _
  | downloadAllConfig =>
    rw [run, Config.CConfigHandle.downloadAllConfig]
    split
    · exact headed_nil head _
    · exact headed_fresh head rfl _ _ _
  | deleteConfig =>
    rw [run, result_replies, Config.CConfigHandle.deleteConfig]
    split
    · exact headed_nil head _
    · split
      · exact headed_fresh head rfl _ _ _
      · exact headed_fresh head rfl _ _ _
  | registerReq =>
    obtain ⟨res, reply⟩ := registerReq_reply env.clientIp msg.bytes s.serviceMap
    rw [run, result_replies, reply]
    exact headed_fresh head rfl _ _ _
  | getServiceReq =>
    obtain ⟨res, reply⟩ := getServiceReq_reply msg.bytes s.serviceMap
    rw [run, result_replies, reply]
    exact headed_fresh head rfl _ _ _

/-- A reply comes back with the `msg_id` of its request exactly if its handler keeps the header or
the `msg_id` is zero. Behind the gateway, it reaches the client that made the request exactly if the
handler keeps the header and the handle of that client is still there, and it is dropped exactly if
the handler does not keep the header. -/
theorem reply_routed_iff (h : Handler) {reply : CMsgHead × Payload}
    (sent : reply ∈ (h.run env head msg s).2) :
    (reply.1.msgId = head.msgId ↔ h.keepsHead = true ∨ head.msgId = 0) ∧
    ∀ (codec : HeadCodec) (events : List Event) (gateway : Router) (m : Message),
      (∀ event ∈ events, event.Allocated) → (Router.machine codec).run {} events = some gateway →
      m ∈ gateway.requests → m.head = head → m.msg = msg →
      (gateway.Answered { m with head := reply.1 } ↔
        h.keepsHead = true ∧ gateway.Open m.origin) ∧
      (gateway.target { m with head := reply.1 } = none ↔ h.keepsHead = false) := by
  have headed := run_headed env head msg s h reply sent
  cases kept : h.keepsHead with
  | true =>
    rw [kept, if_pos rfl] at headed
    have same : reply.1.msgId = head.msgId := by rw [headed]
    refine ⟨iff_of_true same (.inl rfl), fun codec events gateway m allocated run mem ofHead _ => ?_⟩
    obtain ⟨answered, passed_on⟩ :=
      (Router.answered_of_request allocated run mem reply.1).1 (ofHead ▸ same)
    exact ⟨by simpa using answered, by simpa using passed_on⟩
  | false =>
    rw [kept, if_neg Bool.false_ne_true] at headed
    have zero : reply.1.msgId = 0 := by rw [headed]
    refine ⟨?_, fun codec events gateway m allocated run mem _ _ => ?_⟩
    · rw [zero]
      grind
    · have dropped := (Router.answered_of_request allocated run mem reply.1).2 zero
      simp [Router.Answered, dropped]

end

open Library.Wire.Reader

/-- A client of the gateway sends a request for the user system. -/
def authRequest (type : CMsgType) : List Event :=
  [.discover "AUTH" "127.0.0.1" 20020 {}, .proxyEvent ("AUTH", 0) { connected := true },
    .accept 64 {}, .request 64 { msgType := type, serviceName := "AUTH" } (.ofBytes []) []]

/-- The request as the user system gets it. -/
def authMessage (type : CMsgType) : Gateway.Message :=
  ⟨("AUTH", 0), { msgType := type, serviceName := "AUTH", msgId := 64 }, .ofBytes [], 0⟩

/-- A login that fails is answered to the client that made it. -/
theorem login_reply_routed :
    ∃ gateway reply, (Router.machine CMsgHead.codec).run {} (authRequest MSG_LOGIN_REQ) =
        some gateway ∧
      reply ∈ (loginReq.run {} (authMessage MSG_LOGIN_REQ).head (.ofBytes []) {}).2 ∧
      (reply.1.msgId = 64 ↔ loginReq.keepsHead = true ∨ (64 : Int64) = 0) ∧
      gateway.Answered { authMessage MSG_LOGIN_REQ with head := reply.1 } := by
  have sent_on : ((Router.machine CMsgHead.codec).run {} (authRequest MSG_LOGIN_REQ)).map
      (fun gateway => (gateway.requests, (gateway.handles 64).map (·.conn))) =
        some ([authMessage MSG_LOGIN_REQ], some 0) := rfl
  obtain ⟨gateway, run, state⟩ := Option.map_eq_some_iff.mp sent_on
  obtain ⟨requests, own⟩ := Prod.mk.inj state
  have sent : ({ (authMessage MSG_LOGIN_REQ).head with msgType := MSG_LOGIN_RES },
      .loginRes { res := .ERROR, token := "username or password error!" }) ∈
        (loginReq.run {} (authMessage MSG_LOGIN_REQ).head (.ofBytes []) {}).2 := by decide +kernel
  obtain ⟨same, routed⟩ := reply_routed_iff {} (authMessage MSG_LOGIN_REQ).head (.ofBytes []) {}
    loginReq sent
  have allocated : ∀ event ∈ authRequest MSG_LOGIN_REQ, event.Allocated := by
    simp [authRequest, Event.Allocated]
  obtain ⟨handle, there, conn⟩ := Option.map_eq_some_iff.mp own
  have answered := (routed _ _ gateway _ allocated run
    (requests ▸ List.mem_singleton_self _) rfl rfl).1
  exact ⟨gateway, _, run, sent, same, answered.mpr ⟨rfl, 64, handle, there, conn⟩⟩

/-- An add-user request is carried out, and its answer is dropped. -/
theorem add_user_reply_dropped :
    ∃ gateway reply, (Router.machine CMsgHead.codec).run {} (authRequest MSG_ADD_USER_REQ) =
        some gateway ∧
      reply ∈ (addUserReq.run {} (authMessage MSG_ADD_USER_REQ).head (.ofBytes []) {}).2 ∧
      reply.1.msgId ≠ (authMessage MSG_ADD_USER_REQ).head.msgId ∧
      gateway.target { authMessage MSG_ADD_USER_REQ with head := reply.1 } = none := by
  have dropped : ((Router.machine CMsgHead.codec).run {} (authRequest MSG_ADD_USER_REQ)).map
      (fun gateway => gateway.target
        { authMessage MSG_ADD_USER_REQ with head := { msgType := MSG_ADD_USER_RES } }) =
      some none := rfl
  obtain ⟨gateway, run, none_there⟩ := Option.map_eq_some_iff.mp dropped
  exact ⟨gateway, ({ msgType := MSG_ADD_USER_RES },
    .messageRes ⟨.OK, Library.Wire.Kind.utf8 "CAuthHandle::addUserReq OK"⟩),
    run, by decide +kernel, by decide, none_there⟩

end Handler

end MicroserviceFramework.Services
