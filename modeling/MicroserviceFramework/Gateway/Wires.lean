import MicroserviceFramework.Gateway.Forwarding
import MicroserviceFramework.Gateway.ProxyLink

/-!
# The gateway and the bytes on its connections

The gateway of `Router`, except that what is on its way are bytes: the clients send any, in any
chunks, and the gateway and the services read what the other has written some bytes at a time. When
their reads end where a stream may be cut, what is sent on fits, and connections to services are
lost between messages, this is the gateway with messages (`router_of_bytes`). All writes succeed.

`sendMsg` sets `msg_id` and `msg_size` of the header that it is given, which is the receiver's own.
Both are set anew whenever it is sent, so what is sent does not depend on what they were.
-/

namespace MicroserviceFramework.Gateway

open Library Platform Receiver

/-- A client that is there after a round was there before, or has written nothing yet. -/
theorem CServiceProxy.client?_discover_output {s : CServiceProxy} {serviceName ip : String}
    {port : Int} {lib : Libevent} {id : ProxyId} {c : CServiceProxyClient}
    (client : (s.discover serviceName ip port lib).client? id = some c) :
    s.client? id = some c ∨ c.task.output = [] := by
  unfold discover at client
  dsimp only at client
  split at client
  · exact .inl client
  · obtain ⟨name, i⟩ := id
    by_cases same : name = serviceName
    · subst same
      simp only [client?, Function.update_self, Option.bind_some] at client
      by_cases short : i < ((s.clientMap name).getD []).length
      · rw [List.getElem?_append_left short] at client
        rcases listed : s.clientMap name with _ | clients
        · simp [listed] at short
        · rw [listed] at client
          exact .inl (by simpa [client?, listed] using client)
      · rw [List.getElem?_append_right (Nat.le_of_not_lt short)] at client
        obtain rfl := List.mem_singleton.mp (List.mem_of_getElem? client)
        exact .inr (CComeTask.init_output lib _)
    · exact .inl (by simpa [client?, same] using client)

structure Wires where
  handles : Addr → Option CRouterHandle := fun _ => none
  conns : List Addr := []
  proxy : CServiceProxy := {}
  /-- The receivers of the handles. -/
  receivers : Addr → Receiver := fun _ => {}
  links : ProxyId → ProxyLink := fun _ => {}

namespace Wires

inductive Event (codec : HeadCodec) where
  | accept (addr : Addr) (lib : Libevent)
  /-- Bytes arrive from a client. -/
  | receive (addr : Addr) (chunk : List UInt8)
  | handleEvent (addr : Addr) (what : What)
  | discover (serviceName ip : String) (port : Int) (lib : Libevent)
  | reconnect (id : ProxyId) (lib : Libevent)
  | proxyEvent (id : ProxyId) (what : What)
  /-- A service reads up to `n` bytes. -/
  | read (id : ProxyId) (n : Nat)
  /-- A service answers the `k`-th message that it has handled. -/
  | serve (id : ProxyId) (k : Nat) (f : OutFrame codec)
  /-- Up to `n` bytes arrive at a proxy client. -/
  | deliver (id : ProxyId) (n : Nat)

/-- The gateway, with messages on their way. -/
def router (s : Wires) (requests replies : List Message) : Router where
  handles := s.handles
  conns := s.conns
  proxy := s.proxy
  requests := requests
  replies := replies

/-- What a callback makes of the gateway. -/
def put (s : Wires) (r : Router) : Wires :=
  { s with handles := r.handles, conns := r.conns, proxy := r.proxy }

def setReceiver (s : Wires) (addr : Addr) (receiver : Receiver) : Wires :=
  { s with receivers := Function.update s.receivers addr receiver }

def setLink (s : Wires) (id : ProxyId) (x : ProxyLink) : Wires :=
  { s with links := Function.update s.links id x }

/-- What a proxy client has written on its connection. -/
def output (s : Wires) (id : ProxyId) : List UInt8 :=
  ((s.proxy.client? id).map (·.task.output)).getD []

variable (codec : HeadCodec)

/-- `CRouterHandle::readCb`. -/
def forward (addr : Addr) (s : Wires) (d : Dispatch) : Option Wires :=
  ((s.router [] []).request codec addr d.head d.msg []).map s.put

def receive (addr : Addr) (chunk : List UInt8) (s : Wires) : Option Wires := do
  let _ ← (s.router [] []).live addr
  let (dispatches, receiver) := recv codec (s.receivers addr) chunk
  Machine.run ⟨forward codec addr⟩ (s.setReceiver addr receiver) dispatches

/-- `CServiceProxyClient::readCb`. With the pointer of a deleted handle the call is undefined. -/
def passOn (id : ProxyId) (s : Wires) (d : Dispatch) : Option Wires :=
  match (s.proxy.client? id).bind fun c => c.callbackTasks d.head.msgId with
  | none => some s
  | some ev => do
    let handle ← s.handles ev
    let task := (handle.task.sendMsg codec (some d.head) (some d.msg) []).2
    some { s with handles := Function.update s.handles ev (some { handle with task := task }) }

def deliver (id : ProxyId) (n : Nat) (s : Wires) : Option Wires := do
  let _ ← (s.proxy.client? id).filter (·.task.bev.isSome)
  let (dispatches, client) := (s.links id).client.read codec (s.links id).answers n
  Machine.run ⟨passOn codec id⟩ (s.setLink id { s.links id with client := client }) dispatches

variable {codec}

/-- The service echoes the `msg_id`. -/
def serve (id : ProxyId) (k : Nat) (f : OutFrame codec) (s : Wires) : Option Wires := do
  let d ← (s.links id).service.dispatched[k]?
  if f.head.msgId = d.head.msgId then
    some (s.setLink id { s.links id with answers := (s.links id).answers ++ f.bytes })
  else none

def step (s : Wires) : Event codec → Option Wires
  | .accept addr lib =>
    ((s.router [] []).accept addr lib).map fun r => (s.put r).setReceiver addr {}
  | .receive addr chunk => s.receive codec addr chunk
  | .handleEvent addr what => ((s.router [] []).handleEvent addr what).map s.put
  | .discover serviceName ip port lib =>
    some { s with proxy := s.proxy.discover serviceName ip port lib }
  | .reconnect id lib => ((s.router [] []).reconnect id lib).map s.put
  | .proxyEvent id what => ((s.router [] []).proxyEvent id what).map fun r =>
    if what.ending then (s.put r).setLink id (s.links id).lost else s.put r
  | .read id n => some (s.setLink id
      { s.links id with service := ((s.links id).service.read codec (s.output id) n).2 })
  | .serve id k f => s.serve id k f
  | .deliver id n => s.deliver codec id n

variable (codec) in
def machine : Machine Wires (Event codec) := ⟨step⟩

/-- Every read ends where the stream may be cut, what is sent fits, and a connection to a service
is lost between two messages. -/
def Fair (s : Wires) : Event codec → Prop
  | .receive addr chunk => ∀ d ∈ (recv codec (s.receivers addr) chunk).1,
      HeadFits codec (CServiceProxyClient.headTo d.head addr) d.msg
  | .proxyEvent id what => what.ending → (s.links id).Between
  | .read id n => MayCut codec (s.links id).service.before.isNone (s.output id)
      ((s.links id).service.read codec (s.output id) n).2.offset
  | .serve _ _ f => f.Accepted
  | .deliver id n => MayCut codec (s.links id).client.before.isNone (s.links id).answers
      ((s.links id).client.read codec (s.links id).answers n).2.offset
  | _ => True

/-- The messages on the connection of a proxy client. -/
def onLink (id : ProxyId) (messages : List Message) : List Message :=
  messages.filter (·.proxy = id)

/-- The bytes on the connections are those of the messages. -/
structure Carried (codec : HeadCodec) (s : Wires) (requests replies : List Message) : Prop where
  bounded : ∀ addr, Bounded (s.receivers addr)
  carries : ∀ id, (s.links id).Carries codec (s.output id) (onLink id requests) (onLink id replies)

/-- The gateway on its connections is this gateway with messages. -/
def Related (codec : HeadCodec) (s : Wires) (r : Router) : Prop :=
  ∃ requests replies, r = s.router requests replies ∧ Carried codec s requests replies

variable {s s' : Wires} {requests replies : List Message}

theorem Related.start : Related codec {} {} := by
  refine ⟨[], [], rfl, fun _ => .clear {}, fun id => ?_⟩
  exact .start

/-! ## What is written -/

/-- The written bytes depend on the lists of proxy clients alone. -/
theorem output_congr {id : ProxyId} (same : s'.proxy.client? id = s.proxy.client? id) :
    s'.output id = s.output id := by
  rw [output, output, same]

/-- The client behind an id changes. -/
theorem output_set {id : ProxyId} {c : CServiceProxyClient} (client : s.proxy.client? id = some c)
    (task : CComeTask) (other : ProxyId) :
    ({ s with proxy := s.proxy.set id { c with task := task } } : Wires).output other =
      if other = id then task.output else s.output other := by
  by_cases own : other = id <;> simp [output, CServiceProxy.client?_set, client, own]

theorem output_set_same {id : ProxyId} {c : CServiceProxyClient} {task : CComeTask}
    (client : s.proxy.client? id = some c) (written : task.output = c.task.output)
    (other : ProxyId) :
    ({ s with proxy := s.proxy.set id { c with task := task } } : Wires).output other =
      s.output other := by
  rw [output_set client]
  split
  next own => rw [own, written, output, client, Option.map_some, Option.getD_some]
  next => rfl

theorem output_discover (s : Wires) (serviceName ip : String) (port : Int) (lib : Libevent)
    (id : ProxyId) :
    ({ s with proxy := s.proxy.discover serviceName ip port lib } : Wires).output id =
      s.output id := by
  rcases client : s.proxy.client? id with _ | c
  · rw [output, output, client]
    rcases new : (s.proxy.discover serviceName ip port lib).client? id with _ | c
    · rfl
    · rcases CServiceProxy.client?_discover_output new with old | fresh
      · rw [client] at old
        cases old
      · exact fresh
  · exact output_congr ((s.proxy.client?_discover_of_some serviceName ip port lib client).trans
      client.symm)

/-- A request is written as one frame by the client that it goes to, or not at all. -/
theorem output_request {addr : Addr} {head : CMsgHead} {msg : CMsg} {r : Router}
    (within : msg.Within) (fits : HeadFits codec (CServiceProxyClient.headTo head addr) msg)
    (request : (s.router [] []).request codec addr head msg [] = some r) :
    (r.requests = [] ∧ ∀ id, (s.put r).output id = s.output id) ∨
      ∃ (m : Message) (f : Frame codec), r.requests = [m] ∧ f.head = m.head ∧
        f.body = m.msg.bytes ∧ (s.put r).output m.proxy = s.output m.proxy ++ f.bytes ∧
        ∀ id, id ≠ m.proxy → (s.put r).output id = s.output id := by
  obtain ⟨handle, -, request⟩ := Option.bind_eq_some_iff.mp request
  have after : (s.put r).proxy = (s.proxy.sendMsg codec head msg addr []).2 :=
    congrArg Router.proxy (Option.some.inj request).symm
  have written : r.requests = (s.router [] []).sent addr handle head msg [] :=
    congrArg Router.requests (Option.some.inj request).symm
  have proxy : (s.router [] []).proxy = s.proxy := rfl
  rw [Router.sent, proxy] at written
  rcases chosen : s.proxy.chosen head.serviceName with _ | ⟨i, c⟩
  · have lists := (CServiceProxy.sendMsg_none codec head msg addr [] chosen).2.1
    refine .inl ⟨?_, fun id => output_congr (CServiceProxy.client?_congr (after ▸ lists) id)⟩
    unfold CServiceProxy.chosen at chosen
    rcases choice : s.proxy.choose head.serviceName with _ | ⟨last, _ | entry⟩
    · rwa [choice] at written
    · rwa [choice] at written
    · rw [choice] at chosen
      cases chosen
  · have clients := CServiceProxy.client?_sendMsg codec head msg addr [] chosen
    have client := CServiceProxy.client?_chosen chosen
    obtain ⟨⟨last, entry⟩, choice, rfl⟩ := Option.bind_eq_some_iff.mp chosen
    rw [choice] at written
    dsimp only at written
    rw [← after] at clients
    have before : s.output (head.serviceName, i) = c.task.output := by
      rw [output, client, Option.map_some, Option.getD_some]
    have now : (s.put r).output (head.serviceName, i) = (c.task.sendMsg codec
        (some (CServiceProxyClient.headTo head addr)) (some msg) []).2.output := by
      rw [output, clients, if_pos rfl]
      rfl
    have others : ∀ id, id ≠ (head.serviceName, i) → (s.put r).output id = s.output id :=
      fun id ne => output_congr ((clients id).trans (if_neg ne))
    by_cases up : c.task.bev.isSome
    · obtain ⟨f, ofHead, ofBody⟩ := exists_frame within fits
      rw [if_pos ⟨up, List.not_mem_nil⟩] at written
      refine .inr ⟨_, f, written, ofHead, ofBody, ?_, others⟩
      rw [now, before, within.sendMsg, ← ofHead, ← ofBody, f.sendMsg_append up,
        CComeTask.append_output up]
    · -- without a bufferevent nothing is written, and no request is on its way
      rw [if_neg fun both => up both.1] at written
      refine .inl ⟨written, fun id => ?_⟩
      by_cases own : id = (head.serviceName, i)
      · have down : c.task.bev = none := Option.not_isSome_iff_eq_none.mp up
        rw [own, now, before]
        simp [CComeTask.sendMsg, CComeTask.parts, CComeTask.writeAll, CComeTask.writeMsg, down]
      · exact others id own

/-! ## Messages taken from a connection -/

/-- The first entry of a kind is taken out, and those of other kinds stay. -/
theorem exists_eraseIdx {α : Type*} {p : α → Bool} {l as : List α} {a : α}
    (first : l.filter p = a :: as) : ∃ i, l[i]? = some a ∧ (l.eraseIdx i).filter p = as ∧
      ∀ q : α → Bool, q a = false → (l.eraseIdx i).filter q = l.filter q := by
  induction l with
  | nil => cases first
  | cons b l ih =>
    by_cases own : p b
    · rw [List.filter_cons_of_pos own] at first
      obtain ⟨rfl, rfl⟩ := List.cons.inj first
      exact ⟨0, rfl, rfl, fun q other => (List.filter_cons_of_neg (by simp [other])).symm⟩
    · rw [List.filter_cons_of_neg own] at first
      obtain ⟨i, there, rest, others⟩ := ih first
      refine ⟨i + 1, there, ?_, fun q other => ?_⟩
      · rw [List.eraseIdx_cons_succ, List.filter_cons_of_neg own, rest]
      · rw [List.eraseIdx_cons_succ, List.filter_cons, List.filter_cons, others q other]

theorem reply_eq (codec : HeadCodec) {r : Router} {i : Nat} {m : Message}
    (there : r.replies[i]? = some m) (written : List Bool) : r.reply codec i written =
      match r.target m with
      | none => some { r with replies := r.replies.eraseIdx i }
      | some ev => (r.handles ev).map fun handle => { r with
          replies := r.replies.eraseIdx i
          handles := Function.update r.handles ev (some { handle with
            task := (handle.task.sendMsg codec (some m.head) (some m.msg) written).2 }) } := by
  have same : ({ r with replies := r.replies.eraseIdx i } : Router).target m = r.target m := rfl
  unfold Router.reply
  rw [there]
  simp only [Option.bind_eq_bind, Option.bind_some, same]
  rcases r.target m with _ | ev
  · rfl
  · dsimp only
    cases r.handles ev <;> rfl

/-- The next reply of a proxy client is passed on. -/
theorem passOn_reply (requests : List Message) {id : ProxyId} {m : Message} {later : List Message}
    (first : onLink id replies = m :: later) (step : passOn codec id s m.dispatch = some s') :
    ∃ i rest, Router.step codec (s.router requests replies) (.reply i []) =
        some (s'.router requests rest) ∧ onLink id rest = later ∧
      (∀ other, other ≠ id → onLink other rest = onLink other replies) ∧
      s'.links = s.links ∧ s'.receivers = s.receivers ∧ s'.proxy = s.proxy := by
  obtain ⟨i, there, rest, others⟩ := exists_eraseIdx first
  have mem : m ∈ onLink id replies := first ▸ List.mem_cons_self
  have own : m.proxy = id := by simpa [onLink] using (List.mem_filter.mp mem).2
  have target : (s.router requests replies).target m =
      (s.proxy.client? id).bind fun c => c.callbackTasks m.head.msgId := by
    rw [← own]
    rfl
  have reply := reply_eq codec (r := s.router requests replies) there []
  rw [target] at reply
  have kept : ∀ other, other ≠ id →
      onLink other (replies.eraseIdx i) = onLink other replies := fun other ne =>
    others _ (by simp [own, Ne.symm ne])
  unfold passOn at step
  rw [Message.dispatch] at step
  dsimp only at step
  cases whom : (s.proxy.client? id).bind fun c => c.callbackTasks m.head.msgId with
  | none =>
    rw [whom] at reply step
    obtain rfl := Option.some.inj step
    exact ⟨i, _, reply, rest, kept, rfl, rfl, rfl⟩
  | some ev =>
    rw [whom] at reply step
    obtain ⟨handle, there, step⟩ := Option.bind_eq_some_iff.mp step
    obtain rfl := Option.some.inj step
    have there' : (s.router requests replies).handles ev = some handle := there
    dsimp only at reply
    rw [there', Option.map_some] at reply
    exact ⟨i, _, reply, rest, kept, rfl, rfl, rfl⟩

/-- All of the next replies are. -/
theorem passOn_replies (requests : List Message) {id : ProxyId} {now later : List Message}
    (split : onLink id replies = now ++ later)
    (run : Machine.run ⟨passOn codec id⟩ s (now.map Message.dispatch) = some s') :
    ∃ ks rest, (Router.machine codec).run (s.router requests replies) ks =
        some (s'.router requests rest) ∧ onLink id rest = later ∧
      (∀ other, other ≠ id → onLink other rest = onLink other replies) ∧
      s'.links = s.links ∧ s'.receivers = s.receivers ∧ s'.proxy = s.proxy := by
  induction now generalizing s replies with
  | nil =>
    obtain rfl := Option.some.inj run
    exact ⟨[], replies, rfl, split, fun _ _ => rfl, rfl, rfl, rfl⟩
  | cons m now ih =>
    obtain ⟨u, step, run⟩ := Option.bind_eq_some_iff.mp run
    obtain ⟨i, rest, reply, next, others, links, receivers, proxy⟩ :=
      passOn_reply requests split step
    obtain ⟨ks, last, replied, final, others', links', receivers', proxy'⟩ := ih next run
    exact ⟨.reply i [] :: ks, last, Option.bind_eq_some_iff.mpr ⟨_, reply, replied⟩, final,
      fun other ne => (others' other ne).trans (others other ne), links'.trans links,
      receivers'.trans receivers, proxy'.trans proxy⟩

/-! ## Steps -/

/-- A step of the gateway that does not look at the messages on their way. -/
def Silent (g : Router → Option Router) : Prop :=
  ∀ (s : Wires) (requests replies : List Message), g (s.router requests replies) =
    (g (s.router [] [])).map fun r => (s.put r).router requests replies

theorem silent_accept (addr : Addr) (lib : Libevent) : Silent (Router.accept addr lib) := by
  intro s requests replies
  rcases free : s.handles addr with _ | handle <;> simp [Router.accept, router, put, free]

theorem silent_handleEvent (addr : Addr) (what : What) : Silent (Router.handleEvent addr what) := by
  intro s requests replies
  have same : (s.router requests replies).live addr = (s.router [] []).live addr := rfl
  unfold Router.handleEvent
  rw [same]
  cases (s.router [] []).live addr <;> rfl

theorem silent_reconnect (id : ProxyId) (lib : Libevent) : Silent (Router.reconnect id lib) := by
  intro s requests replies
  have same : (s.router requests replies).proxy.client? id =
      (s.router [] []).proxy.client? id := rfl
  unfold Router.reconnect
  rw [same]
  cases (s.router [] []).proxy.client? id <;> rfl

/-- One step of the gateway with messages. -/
theorem run_single {r r' : Router} {event : Gateway.Event}
    (step : Router.step codec r event = some r') :
    (Router.machine codec).run r [event] = some r' :=
  Option.bind_eq_some_iff.mpr ⟨r', step, rfl⟩

namespace Carried

theorem put (carried : Carried codec s requests replies) {r : Router}
    (written : ∀ id, (s.put r).output id = s.output id) :
    Carried codec (s.put r) requests replies := by
  refine ⟨carried.bounded, fun id => ?_⟩
  rw [written]
  exact carried.carries id

theorem setReceiver (carried : Carried codec s requests replies) {receiver : Receiver}
    (bounded : Bounded receiver) (addr : Addr) :
    Carried codec (s.setReceiver addr receiver) requests replies := by
  refine ⟨fun other => ?_, carried.carries⟩
  by_cases own : other = addr
  · subst own
    simpa [Wires.setReceiver] using bounded
  · simpa [Wires.setReceiver, own] using carried.bounded other

/-- The messages of one connection change with its bytes. -/
theorem setLink (carried : Carried codec s requests replies) {id : ProxyId} {x : ProxyLink}
    {requests' replies' : List Message}
    (own : x.Carries codec (s.output id) (onLink id requests') (onLink id replies'))
    (others : ∀ other, other ≠ id → onLink other requests' = onLink other requests ∧
      onLink other replies' = onLink other replies) :
    Carried codec (s.setLink id x) requests' replies' := by
  refine ⟨carried.bounded, fun other => ?_⟩
  by_cases same : other = id
  · subst same
    have link : (s.setLink other x).links other = x := Function.update_self ..
    rw [link]
    exact own
  · obtain ⟨asked, answered⟩ := others other same
    have link : (s.setLink id x).links other = s.links other := Function.update_of_ne same ..
    rw [link, asked, answered]
    exact carried.carries other

end Carried

theorem onLink_append (id : ProxyId) (messages : List Message) (m : Message) :
    onLink id (messages ++ [m]) = onLink id messages ++ if m.proxy = id then [m] else [] := by
  by_cases own : m.proxy = id <;> simp [onLink, own]

/-- What is lost with a connection. -/
theorem onLink_filter (other id : ProxyId) (ending : Bool) (messages : List Message) :
    onLink other (messages.filter fun m => decide ¬(ending ∧ m.proxy = id)) =
      if ending ∧ other = id then [] else onLink other messages := by
  unfold onLink
  rw [List.filter_filter]
  split
  next lost =>
    refine List.filter_eq_nil_iff.mpr fun m _ => ?_
    simp [lost.1, lost.2]
  next kept =>
    refine List.filter_congr fun m _ => ?_
    by_cases own : m.proxy = other
    · have foreign : ¬(ending ∧ m.proxy = id) := own ▸ kept
      rw [decide_eq_true foreign, Bool.and_true]
    · rw [decide_eq_false own, Bool.false_and]

/-- A message of a client is sent on. -/
theorem Related.forward {r : Router} (related : Related codec s r) {addr : Addr} {d : Dispatch}
    (within : d.msg.Within) (fits : HeadFits codec (CServiceProxyClient.headTo d.head addr) d.msg)
    (step : forward codec addr s d = some s') :
    ∃ ks r', (Router.machine codec).run r ks = some r' ∧ Related codec s' r' := by
  obtain ⟨requests, replies, rfl, carried⟩ := related
  obtain ⟨r₁, request, rfl⟩ := Option.map_eq_some_iff.mp step
  have sent := output_request within fits request
  have same : Router.step codec (s.router requests replies) (.request addr d.head d.msg []) =
      some ((s.put r₁).router (requests ++ r₁.requests) replies) := by
    obtain ⟨handle, live, request⟩ := Option.bind_eq_some_iff.mp request
    obtain rfl := Option.some.inj request
    exact Option.bind_eq_some_iff.mpr ⟨handle, live, rfl⟩
  refine ⟨_, _, run_single same, _, replies, rfl, carried.bounded, fun id => ?_⟩
  have carries := carried.carries id
  rcases sent with ⟨none, same⟩ | ⟨m, f, one, head, body, own, others⟩
  · rw [none, List.append_nil, same]
    exact carries
  · rw [one, onLink_append]
    by_cases mine : m.proxy = id
    · subst mine
      rw [if_pos rfl, own]
      exact carries.request head body
    · rw [if_neg mine, List.append_nil, others id (Ne.symm mine)]
      exact carries

theorem Related.receive {r : Router} (related : Related codec s r) {addr : Addr}
    {chunk : List UInt8} (fair : s.Fair (.receive addr chunk : Event codec))
    (step : s.receive codec addr chunk = some s') :
    ∃ ks r', (Router.machine codec).run r ks = some r' ∧ Related codec s' r' := by
  obtain ⟨requests, replies, rfl, carried⟩ := related
  obtain ⟨handle, -, run⟩ := Option.bind_eq_some_iff.mp step
  obtain ⟨within, bounded⟩ := recv_within codec (carried.bounded addr) chunk
  refine Machine.run_simulated (C := fun _ d => d.msg.Within ∧
      HeadFits codec (CServiceProxyClient.headTo d.head addr) d.msg) ⟨Wires.forward codec addr⟩
    (Router.machine codec) (fun u d u' r related fits step => related.forward fits.1 fits.2 step)
    ?_ (Machine.along_of_mem _ (fun d mem => ⟨within d mem, fair d mem⟩) _) run
  exact ⟨requests, replies, rfl, carried.setReceiver bounded addr⟩

theorem Related.proxyEvent {r : Router} (related : Related codec s r) {id : ProxyId} {what : What}
    (fair : what.ending → (s.links id).Between)
    (step : s.step (.proxyEvent id what : Event codec) = some s') :
    ∃ ks r', (Router.machine codec).run r ks = some r' ∧ Related codec s' r' := by
  obtain ⟨requests, replies, rfl, carried⟩ := related
  obtain ⟨r₁, moved, rfl⟩ := Option.map_eq_some_iff.mp step
  obtain ⟨c, found, moved⟩ := Option.bind_eq_some_iff.mp moved
  obtain ⟨task, event, moved⟩ := Option.bind_eq_some_iff.mp moved
  obtain rfl := Option.some.inj moved
  have client : s.proxy.client? id = some c := (Option.filter_eq_some_iff.mp found).1
  have written := CComeTask.eventCb_output event
  have messages : (Router.machine codec).run (s.router requests replies) [.proxyEvent id what] =
      some _ := run_single (Option.bind_eq_some_iff.mpr ⟨c, found,
        Option.bind_eq_some_iff.mpr ⟨task, event, rfl⟩⟩)
  have carries : ∀ other, ((if what.ending then Function.update s.links id (s.links id).lost
      else s.links) other).Carries codec
        (({ s with proxy := s.proxy.set id { c with task := task } } : Wires).output other)
        (onLink other (requests.filter fun m => decide ¬(what.ending ∧ m.proxy = id)))
        (onLink other (replies.filter fun m => decide ¬(what.ending ∧ m.proxy = id))) := by
    intro other
    rw [onLink_filter, onLink_filter]
    by_cases ends : what.ending
    · rw [if_pos ends, output_set client]
      rw [if_pos ends] at written
      by_cases own : other = id
      · subst own
        rw [Function.update_self, if_pos rfl, if_pos ⟨ends, rfl⟩, if_pos ⟨ends, rfl⟩, written]
        exact .lost (fair ends)
      · have stays : ¬(what.ending ∧ other = id) := fun both => own both.2
        rw [Function.update_of_ne own, if_neg own, if_neg stays, if_neg stays]
        exact carried.carries other
    · have stays : ¬(what.ending ∧ other = id) := fun both => ends both.1
      rw [if_neg ends] at written
      rw [if_neg ends, output_set_same client written, if_neg stays, if_neg stays]
      exact carried.carries other
  by_cases ends : what.ending
  · rw [if_pos ends] at carries ⊢
    exact ⟨_, _, messages, _, _, rfl, carried.bounded, carries⟩
  · rw [if_neg ends] at carries ⊢
    exact ⟨_, _, messages, _, _, rfl, carried.bounded, carries⟩

/-- A step with bytes is some steps with messages. -/
theorem Related.step {r : Router} (related : Related codec s r) {event : Event codec}
    (fair : s.Fair event) (step : s.step event = some s') :
    ∃ ks r', (Router.machine codec).run r ks = some r' ∧ Related codec s' r' := by
  cases event with
  | accept addr lib =>
    obtain ⟨requests, replies, rfl, carried⟩ := related
    obtain ⟨r₁, accepted, rfl⟩ := Option.map_eq_some_iff.mp step
    have proxy : r₁.proxy = s.proxy := by
      unfold Router.accept at accepted
      split at accepted
      · cases accepted
      · obtain rfl := Option.some.inj accepted
        rfl
    have same := silent_accept addr lib s requests replies
    rw [accepted] at same
    refine ⟨[.accept addr lib], _, run_single same, requests, replies, rfl, ?_⟩
    exact (carried.put fun id => output_congr (congrArg (·.client? id) proxy)).setReceiver
      (.clear {}) addr
  | receive addr chunk => exact related.receive fair step
  | handleEvent addr what =>
    obtain ⟨requests, replies, rfl, carried⟩ := related
    obtain ⟨r₁, moved, rfl⟩ := Option.map_eq_some_iff.mp step
    have proxy : r₁.proxy = s.proxy := by
      obtain ⟨handle, -, moved⟩ := Option.bind_eq_some_iff.mp moved
      obtain rfl := Option.some.inj moved
      rfl
    have same := silent_handleEvent addr what s requests replies
    rw [moved] at same
    exact ⟨[.handleEvent addr what], _, run_single same, requests, replies, rfl,
      carried.put fun id => output_congr (congrArg (·.client? id) proxy)⟩
  | discover serviceName ip port lib =>
    obtain ⟨requests, replies, rfl, carried⟩ := related
    obtain rfl := Option.some.inj step
    refine ⟨[.discover serviceName ip port lib], _, run_single rfl, requests, replies, rfl,
      carried.bounded, fun id => ?_⟩
    exact (output_discover s serviceName ip port lib id).symm ▸ carried.carries id
  | reconnect id lib =>
    obtain ⟨requests, replies, rfl, carried⟩ := related
    obtain ⟨r₁, moved, rfl⟩ := Option.map_eq_some_iff.mp step
    have same := silent_reconnect id lib s requests replies
    rw [moved] at same
    obtain ⟨c, client, moved⟩ := Option.bind_eq_some_iff.mp moved
    obtain rfl := Option.some.inj moved
    exact ⟨[.reconnect id lib], _, run_single same, requests, replies, rfl,
      carried.put (output_set_same client (c.task.autoConnectTimerCb_output lib))⟩
  | proxyEvent id what => exact related.proxyEvent fair step
  | read id n =>
    obtain ⟨requests, replies, rfl, carried⟩ := related
    obtain rfl := Option.some.inj step
    exact ⟨[], _, rfl, requests, replies, rfl,
      carried.setLink ((carried.carries id).read fair) fun _ _ => ⟨rfl, rfl⟩⟩
  | serve id k f =>
    obtain ⟨requests, replies, rfl, carried⟩ := related
    obtain ⟨d, handled, answered⟩ := Option.bind_eq_some_iff.mp step
    split at answered
    next echo =>
      obtain rfl := Option.some.inj answered
      obtain ⟨m, mem, carries⟩ := (carried.carries id).serve handled fair echo
      obtain ⟨among, own⟩ := List.mem_filter.mp mem
      obtain ⟨i, there⟩ := List.mem_iff_getElem?.mp among
      have mine : m.proxy = id := by simpa using own
      refine ⟨[.serve i f.header f.dispatch.msg], _, run_single (Option.bind_eq_some_iff.mpr
        ⟨m, there, rfl⟩), requests, replies ++ [m.answer f], rfl, carried.setLink ?_ ?_⟩
      · rwa [onLink_append, if_pos (show (m.answer f).proxy = id from mine)]
      · intro other ne
        have foreign : (m.answer f).proxy ≠ other := fun same => ne (same.symm.trans mine)
        exact ⟨rfl, by rw [onLink_append, if_neg foreign, List.append_nil]⟩
    · cases answered
  | deliver id n =>
    obtain ⟨requests, replies, rfl, carried⟩ := related
    obtain ⟨c, -, run⟩ := Option.bind_eq_some_iff.mp step
    obtain ⟨now, later, split, dispatches, carries⟩ := (carried.carries id).deliver fair
    dsimp only at run
    -- the reader has moved on, and the replies that it took are passed on one by one
    rw [← dispatches] at run
    obtain ⟨ks, rest, passed, left, others, links, receivers, proxy⟩ :=
      passOn_replies requests split run
    have moved : Carried codec (s.setLink id _) requests rest :=
      carried.setLink (left ▸ carries) fun other ne => ⟨rfl, others other ne⟩
    refine ⟨ks, _, passed, requests, rest, rfl, fun addr => ?_, fun other => ?_⟩
    · rw [receivers]
      exact moved.bounded addr
    · rw [links, output_congr (congrArg (·.client? other) proxy)]
      exact moved.carries other

section Listing

/-- The connection from the gateway to the service. -/
def dir : ProxyId := ("dir", 0)

open Library.Wire.Reader

/-- The request as it comes to the service: its number is the address of the handle. -/
def dirAsked : Frame CMsgHead.codec where
  head := { msgType := .MSG_DIR_REQ, serviceName := "dir", msgId := 64 }
  body := [104, 105]
  body_fits := by decide
  head_fits := by decide +kernel
  accepted := ⟨by decide +kernel, by decide +kernel, by decide⟩

def dirAnswered : Frame CMsgHead.codec where
  head := { msgType := .MSG_DIR_RES, msgId := 64 }
  body := [47]
  body_fits := by decide
  head_fits := by decide +kernel
  accepted := ⟨by decide +kernel, by decide +kernel, by decide⟩

def connected : List (Event CMsgHead.codec) :=
  [.accept 64 {}, .discover "dir" "10.0.0.3" 20011 {}, .proxyEvent dir { connected := true }]

/-- The request of a client arrives. -/
def requested : List (Event CMsgHead.codec) := connected ++
  [.receive 64 [9, 0, 0, 0, 8, 2, 16, 3, 34, 3, 100, 105, 114, 104, 105]]

/-- The service reads up to the last byte of its body. -/
def readInPart : List (Event CMsgHead.codec) := requested ++ [.read dir 16]

def readWhole : List (Event CMsgHead.codec) := readInPart ++ [.read dir 1]

def served : List (Event CMsgHead.codec) := readWhole ++ [.serve dir 0 dirAnswered.toOutFrame]

def listed : List (Event CMsgHead.codec) := served ++ [.deliver dir 100]

theorem readInPart_fair : (machine CMsgHead.codec).Along Fair {} readInPart := by
  have opening : (machine CMsgHead.codec).Along Fair {} connected :=
    ⟨trivial, fun _ _ => ⟨trivial, fun _ _ => ⟨fun ends => absurd ends (by decide), fun _ _ =>
      trivial⟩⟩⟩
  refine Machine.along_concat _ |>.mpr ⟨Machine.along_concat _ |>.mpr ⟨opening, fun s run => ?_⟩,
    fun s run => ?_⟩
  · have fresh : ((machine CMsgHead.codec).run {} connected).map (·.receivers 64) = some {} := by
      decide +kernel
    rw [run] at fresh
    have none_left : s.receivers 64 = {} := Option.some.inj fresh
    rw [Fair, none_left]
    decide +kernel
  · have link : ((machine CMsgHead.codec).run {} requested).map (fun s =>
        ((s.links dir).service.before.isNone, s.output dir,
          ((s.links dir).service.read CMsgHead.codec (s.output dir) 16).2.offset)) =
        some (true, dirAsked.bytes, 16) := by decide +kernel
    have same : (machine CMsgHead.codec).run {} requested = some s := run
    rw [same] at link
    simp only [Option.map_some, Option.some.injEq, Prod.mk.injEq] at link
    obtain ⟨first, output, offset⟩ := link
    rw [Fair, first, offset, output]
    exact ⟨[dirAsked], by decide +kernel, by decide +kernel⟩

theorem listed_fair : (machine CMsgHead.codec).Along Fair {} listed := by
  refine Machine.along_concat _ |>.mpr ⟨Machine.along_concat _ |>.mpr ⟨Machine.along_concat _ |>.mpr
    ⟨readInPart_fair, fun s run => ?_⟩, fun s run => dirAnswered.accepted⟩, fun s run => ?_⟩
  · have link : ((machine CMsgHead.codec).run {} readInPart).map (fun s =>
        ((s.links dir).service.before.isNone, s.output dir,
          ((s.links dir).service.read CMsgHead.codec (s.output dir) 1).2.offset)) =
        some (true, dirAsked.bytes, 17) := by decide +kernel
    rw [run] at link
    simp only [Option.map_some, Option.some.injEq, Prod.mk.injEq] at link
    obtain ⟨first, output, offset⟩ := link
    rw [Fair, first, offset, output]
    exact ⟨[dirAsked], by decide +kernel, by decide +kernel⟩
  · have link : ((machine CMsgHead.codec).run {} served).map (fun s =>
        ((s.links dir).client.before.isNone, (s.links dir).answers,
          ((s.links dir).client.read CMsgHead.codec (s.links dir).answers 100).2.offset)) =
        some (true, dirAnswered.bytes, 11) := by decide +kernel
    have same : (machine CMsgHead.codec).run {} served = some s := run
    rw [same] at link
    simp only [Option.map_some, Option.some.injEq, Prod.mk.injEq] at link
    obtain ⟨first, answers, offset⟩ := link
    rw [Fair, first, offset, answers]
    exact ⟨[dirAnswered], by decide +kernel, by decide +kernel⟩

end Listing

end Wires

end MicroserviceFramework.Gateway
