import MicroserviceFramework.Gateway.Forwarding

/-!
# Taking a connection out of the tables

`clientCbs_` has one entry for a connection: the proxy client that it used last. `delEvent` takes
the connection out of the table of that client, and leaves it in the tables of the others and in
`clientCbs_` itself. For a connection that never reached a client there is no entry, and the code
goes on without one.
-/

namespace MicroserviceFramework.Gateway

open Library Platform

namespace CServiceProxy

/-- No trace of the connection is left, and nothing is changed about the others. -/
structure Forgotten (s s' : CServiceProxy) (ev : Addr) : Prop where
  tables : ∀ id c, s'.client? id = some c → c.callbackTasks ev = none
  last : s'.clientCbs ev = none
  others : ∀ other, other ≠ ev → s'.clientCbs other = s.clientCbs other ∧
    ∀ id, (s'.client? id).map (·.callbackTasks other) = (s.client? id).map (·.callbackTasks other)

/-- A `delEvent` returns, and has unregistered its connection. -/
def Complete (s : CServiceProxy) : Event → Prop
  | .delEvent ev => ∃ s', s.delEvent ev = some s' ∧ Forgotten s s' ev
  | _ => True

/-- A `delEvent` is of the null pointer, and no message was ever sent for that. -/
def OfNull (s : CServiceProxy) : Event → Prop
  | .delEvent ev => ev = 0 ∧ s.clientCbs 0 = none
  | _ => True

/-- Who is in a table has an entry, and the entries are of clients that exist. -/
structure Tracked (s : CServiceProxy) : Prop where
  entry : ∀ id c ev, s.client? id = some c → c.callbackTasks ev ≠ none → s.clientCbs ev ≠ none
  client : ∀ ev id, s.clientCbs ev = some id → (s.client? id).isSome

variable {codec : HeadCodec} {s s' : CServiceProxy}

theorem Tracked.init : ({} : CServiceProxy).Tracked := by
  constructor <;> simp [client?]

/-- One client is replaced by another with fewer connections in its table. -/
theorem Tracked.set (tracked : s.Tracked) {id : ProxyId} {c c' : CServiceProxyClient}
    (client : s.client? id = some c)
    (table : ∀ ev, c'.callbackTasks ev ≠ none → c.callbackTasks ev ≠ none) :
    (s.set id c').Tracked := by
  constructor
  · intro id' d ev there registered
    rw [client?_set] at there
    split at there
    next same =>
      rw [client] at there
      obtain rfl := Option.some.inj there
      exact tracked.entry id c ev client (table ev registered)
    · exact tracked.entry id' d ev there registered
  · intro ev id' last
    have there := tracked.client ev id' last
    rw [client?_set]
    split
    next same => rw [client]; rfl
    · exact there

theorem Tracked.discover (tracked : s.Tracked) (serviceName ip : String) (port : Int)
    (lib : Libevent) : (s.discover serviceName ip port lib).Tracked := by
  constructor
  · intro id c ev client registered
    rw [discover_clientCbs]
    rcases s.client?_discover serviceName ip port lib client with old | new
    · exact tracked.entry id c ev old registered
    · rw [new] at registered
      exact absurd rfl registered
  · intro ev id last
    rw [discover_clientCbs] at last
    obtain ⟨c, there⟩ := Option.isSome_iff_exists.mp (tracked.client ev id last)
    rw [s.client?_discover_of_some serviceName ip port lib there]
    rfl

theorem Tracked.sendMsg (tracked : s.Tracked) (head : CMsgHead) (msg : CMsg) (ev : Addr)
    (written : List Bool) : (s.sendMsg codec head msg ev written).2.Tracked := by
  rcases chosen : s.chosen head.serviceName with _ | ⟨i, c⟩
  · obtain ⟨-, lists, entries⟩ := sendMsg_none codec head msg ev written chosen
    constructor
    · intro id d other client
      rw [entries]
      exact tracked.entry id d other (client?_congr lists id ▸ client)
    · intro other id
      rw [entries, client?_congr lists]
      exact tracked.client other id
  · have entries := (sendMsg_some codec head msg ev written chosen).2.2
    have there := client?_chosen chosen
    constructor
    · intro id d other client registered
      rw [entries]
      by_cases own : other = ev
      · simp [own]
      rw [Function.update_of_ne own]
      rw [client?_sendMsg codec head msg ev written chosen] at client
      split at client
      next =>
        obtain rfl := Option.some.inj client
        rw [CServiceProxyClient.sendMsg_callbackTasks, Function.update_of_ne own] at registered
        exact tracked.entry _ c other there registered
      · exact tracked.entry id d other client registered
    · intro other id last
      rw [client?_sendMsg codec head msg ev written chosen]
      split
      · rfl
      next elsewhere =>
        rw [entries] at last
        by_cases own : other = ev
        · rw [own, Function.update_self] at last
          exact absurd (Option.some.inj last).symm elsewhere
        · rw [Function.update_of_ne own] at last
          exact tracked.client other id last

theorem machine_preserves_tracked : (machine codec).Preserves (fun _ _ => True) Tracked := by
  intro s event s' tracked _ step
  cases event with
  | sendMsg head msg ev written =>
    obtain rfl := Option.some.inj step
    exact tracked.sendMsg head msg ev written
  | delEvent ev =>
    by_cases null : ev = 0
    · obtain rfl : s = s' := by simpa [machine, CServiceProxy.step, delEvent, null] using step
      exact tracked
    · obtain ⟨id, c, -, client, rfl⟩ := (delEvent_eq_some null).mp step
      refine tracked.set client fun other registered => ?_
      by_cases own : other = ev
      · simp [CServiceProxyClient.delEvent, own] at registered
      · simpa [CServiceProxyClient.delEvent, own] using registered
  | discover serviceName ip port lib =>
    obtain rfl := Option.some.inj step
    exact tracked.discover serviceName ip port lib
  | proxyEvent id what =>
    obtain ⟨c, found, step⟩ := Option.bind_eq_some_iff.mp step
    obtain ⟨task, -, step⟩ := Option.bind_eq_some_iff.mp step
    obtain rfl := Option.some.inj step
    exact tracked.set (Option.filter_eq_some_iff.mp found).1 fun _ registered => registered
  | reconnect id lib =>
    obtain ⟨c, client, step⟩ := Option.bind_eq_some_iff.mp step
    obtain rfl := Option.some.inj step
    exact tracked.set client fun _ registered => registered

/-! ## What `delEvent` does -/

/-- It is undefined for a connection that never reached a client. -/
theorem Tracked.delEvent_eq_none (tracked : s.Tracked) {ev : Addr} (ne : ev ≠ 0) :
    s.delEvent ev = none ↔ s.clientCbs ev = none := by
  rcases last : s.clientCbs ev with _ | id
  · simp [delEvent, ne, last]
  · obtain ⟨c, client⟩ := Option.isSome_iff_exists.mp (tracked.client ev id last)
    simp [delEvent, ne, last, client]

/-- `clientCbs_` is as it was. -/
theorem clientCbs_delEvent {ev : Addr} (deleted : s.delEvent ev = some s') :
    s'.clientCbs = s.clientCbs := by
  by_cases null : ev = 0
  · obtain rfl : s = s' := by simpa [delEvent, null] using deleted
    rfl
  · obtain ⟨id, c, -, -, rfl⟩ := (delEvent_eq_some null).mp deleted
    rfl

theorem Tracked.complete_iff (tracked : s.Tracked) (event : Event) :
    s.Complete event ↔ s.OfNull event := by
  cases event with
  | delEvent ev =>
    constructor
    · rintro ⟨s', deleted, forgotten⟩
      have last := forgotten.last
      rw [clientCbs_delEvent deleted] at last
      by_cases null : ev = 0
      · exact ⟨null, null ▸ last⟩
      · rw [(tracked.delEvent_eq_none null).mpr last] at deleted
        cases deleted
    · rintro ⟨rfl, last⟩
      refine ⟨s, by simp [delEvent], ?_, last, fun _ _ => ⟨rfl, fun _ => rfl⟩⟩
      intro id c client
      by_contra registered
      exact tracked.entry id c 0 client registered last
  | _ => exact Iff.rfl

/-- In no run does `delEvent` unregister a connection: it does its work for the null pointer only,
of which there is nothing to forget. -/
theorem unregistering_complete_iff (codec : HeadCodec) (events : List Event) :
    (machine codec).Along Complete {} events ↔ (machine codec).Along OfNull {} events :=
  (machine codec).along_congr machine_preserves_tracked
    (fun _ event tracked => tracked.complete_iff event) .init events

/-! ## Two clients of one service -/

/-- The connection at 64 sends two messages, which go to one client each. -/
def twoMessages : List Event :=
  [.discover "dir" "127.0.0.1" 20011 {}, .discover "dir" "127.0.0.1" 20012 {},
    .proxyEvent ("dir", 0) { connected := true }, .proxyEvent ("dir", 1) { connected := true },
    .sendMsg { serviceName := "dir" } (.ofBytes [1]) 64 [],
    .sendMsg { serviceName := "dir" } (.ofBytes [1]) 64 []]

open Library.Wire.Reader

/-- The first client still knows the connection, and `clientCbs_` does too. For a connection that
has sent nothing, `delEvent` is undefined. -/
theorem delEvent_incomplete :
    (∃ s s', (machine CMsgHead.codec).run {} twoMessages = some s ∧ s.delEvent 64 = some s' ∧
      s'.Registered ("dir", 1) 64 ∧ s'.clientCbs 64 = some ("dir", 0) ∧
      ¬s.Complete (.delEvent 64)) ∧
    ({} : CServiceProxy).delEvent 64 = none ∧ ¬({} : CServiceProxy).Complete (.delEvent 64) := by
  have trace : ((machine CMsgHead.codec).run {} twoMessages).bind (fun s => (s.delEvent 64).bind
      fun s' => (s'.client? ("dir", 1)).map fun c => (c.callbackTasks 64, s'.clientCbs 64)) =
      some (some 64, some ("dir", 0)) := by decide +kernel
  obtain ⟨s, run, rest⟩ := Option.bind_eq_some_iff.mp trace
  obtain ⟨s', deleted, rest⟩ := Option.bind_eq_some_iff.mp rest
  obtain ⟨c, client, values⟩ := Option.map_eq_some_iff.mp rest
  obtain ⟨table, last⟩ := Prod.mk.inj values
  refine ⟨⟨s, s', run, deleted, ⟨c, client, table⟩, last, ?_⟩, rfl, ?_⟩
  · rintro ⟨t, same, forgotten⟩
    obtain rfl := Option.some.inj (deleted.symm.trans same)
    exact absurd (table.symm.trans (forgotten.tables _ c client)) (by decide)
  · rintro ⟨t, deleted, -⟩
    cases deleted

end CServiceProxy

end MicroserviceFramework.Gateway
