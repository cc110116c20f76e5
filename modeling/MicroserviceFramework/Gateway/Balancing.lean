import MicroserviceFramework.Gateway.Forwarding
import MicroserviceFramework.Library.RoundRobin

/-!
# Which client a message goes to

The loop of `sendMsg` is a turn of round robin over the connected clients of the service, starting
from `clientMapLastIdx_`. That index stays within the list, also when `mainFunc` adds a client and
sets it back to 0.
-/

namespace MicroserviceFramework.Gateway

open Library Platform

namespace CServiceProxy

/-- Which clients of the service are connected. -/
def connectivity (s : CServiceProxy) (serviceName : String) : List Bool :=
  ((s.clientMap serviceName).getD []).map (·.task.isConnected)

/-- The position of the first connected client after the last that was tried. -/
def turn (s : CServiceProxy) (serviceName : String) : Option Nat :=
  let up := s.connectivity serviceName
  RoundRobin.next (fun i => up[i]? = some true) up.length (s.clientMapLastIdx serviceName)

/-- What a `sendMsg` does when it is the turn of the client at a position, or of nobody. -/
def Forwards (codec : HeadCodec) (head : CMsgHead) (msg : CMsg) (ev : Addr) (written : List Bool)
    (s : CServiceProxy) : Option Nat → Prop
  | none => (s.sendMsg codec head msg ev written).1 = false ∧
      ∀ id, (s.sendMsg codec head msg ev written).2.client? id = s.client? id
  | some i => ∃ c, s.client? (head.serviceName, i) = some c ∧ c.task.isConnected ∧
      (s.sendMsg codec head msg ev written).1 = (c.sendMsg codec head msg ev written).1 ∧
      ∀ id, (s.sendMsg codec head msg ev written).2.client? id =
        if id = (head.serviceName, i) then some (c.sendMsg codec head msg ev written).2
        else s.client? id

def Event.sendsTo (serviceName : String) : Event → Bool
  | .sendMsg head .. => head.serviceName = serviceName
  | _ => false

/-- The positions of the clients that the calls of a run for the service are forwarded to. -/
def forwarded (codec : HeadCodec) (serviceName : String) : CServiceProxy → List Event → List Nat
  | _, [] => []
  | s, event :: events =>
    (if event.sendsTo serviceName then ((s.chosen serviceName).map (·.1)).toList else []) ++
      match s.step codec event with
      | none => []
      | some t => forwarded codec serviceName t events

/-- The step leaves the list of the service and the connectivity as they are. -/
def Steady (codec : HeadCodec) (serviceName : String) (s : CServiceProxy) (event : Event) : Prop :=
  ∀ t, s.step codec event = some t → t.connectivity serviceName = s.connectivity serviceName

/-- The last index of every service is within its list. -/
def InRange (s : CServiceProxy) : Prop :=
  ∀ serviceName clients, s.clientMap serviceName = some clients →
    s.clientMapLastIdx serviceName < clients.length

variable {codec : HeadCodec} {s s' : CServiceProxy} {serviceName : String}

/-! ## The loop -/

theorem up_iff {clients : List CServiceProxyClient} {i : Nat} :
    (clients.map (·.task.isConnected))[i]? = some true ↔
      ∃ c, clients[i]? = some c ∧ c.task.isConnected = true := by
  rw [List.getElem?_map, Option.map_eq_some_iff]

/-- The loop tries `k` positions one after the other, and stops at the first that is connected. -/
theorem poll_eq (clients : List CServiceProxyClient) (k : Nat) {cur : Nat}
    (lt : cur < clients.length) :
    poll clients k cur =
      match ((List.range k).map fun d => (cur + 1 + d) % clients.length).find?
        (fun i => (clients.map (·.task.isConnected))[i]? = some true) with
      | none => ((cur + k) % clients.length, none)
      | some i => (i, clients[i]?.map (i, ·)) := by
  induction k generalizing cur with
  | zero => simp [poll, Nat.mod_eq_of_lt lt]
  | succ k ih =>
    have pos : 0 < clients.length := Nat.zero_lt_of_lt lt
    have next_lt := Nat.mod_lt (cur + 1) pos
    have rest : (fun d => ((cur + 1) % clients.length + 1 + d) % clients.length) =
        (fun d => (cur + 1 + d) % clients.length) ∘ Nat.succ := by
      funext d
      rw [Nat.add_assoc, Nat.mod_add_mod, Function.comp_apply, Nat.add_comm 1 d]
    rw [List.range_succ_eq_map, List.map_cons, List.map_map, ← rest, List.find?_cons, Nat.add_zero]
    rw [poll, List.getElem?_eq_getElem next_lt]
    dsimp only
    split
    next up =>
      have found : (clients.map (·.task.isConnected))[(cur + 1) % clients.length]? = some true :=
        up_iff.mpr ⟨_, List.getElem?_eq_getElem next_lt, up⟩
      rw [decide_eq_true found]
      dsimp only
      rw [List.getElem?_eq_getElem next_lt]
      rfl
    next down =>
      have missed : ¬(clients.map (·.task.isConnected))[(cur + 1) % clients.length]? = some true := by
        intro found
        obtain ⟨c, there, up⟩ := up_iff.mp found
        rw [List.getElem?_eq_getElem next_lt] at there
        obtain rfl := Option.some.inj there
        exact down up
      rw [decide_eq_false missed, ih next_lt, Nat.mod_add_mod, Nat.add_assoc, Nat.add_comm 1 k]

theorem choose_eq (inRange : s.InRange) {clients : List CServiceProxyClient}
    (listed : s.clientMap serviceName = some clients) :
    s.choose serviceName = some (match s.turn serviceName with
      | none => (s.clientMapLastIdx serviceName, none)
      | some i => (i, clients[i]?.map (i, ·))) := by
  have lt := inRange serviceName clients listed
  rw [choose, listed, Option.map_some, poll_eq clients _ lt, Nat.add_mod_right,
    Nat.mod_eq_of_lt lt, turn, connectivity, listed, Option.getD_some, RoundRobin.next,
    RoundRobin.after, List.length_map]

/-- A turn is that of a connected client of the list. -/
theorem turn_eq_some {i : Nat} (turn : s.turn serviceName = some i) :
    ∃ clients c, s.clientMap serviceName = some clients ∧ clients[i]? = some c ∧
      c.task.isConnected = true := by
  have up := (RoundRobin.next_eq_some turn).1
  rcases listed : s.clientMap serviceName with _ | clients
  · rw [connectivity, listed] at up
    cases up
  · rw [connectivity, listed] at up
    obtain ⟨c, there, connected⟩ := up_iff.mp up
    exact ⟨clients, c, rfl, there, connected⟩

theorem turn_unlisted (unlisted : s.clientMap serviceName = none) : s.turn serviceName = none := by
  rcases turn : s.turn serviceName with _ | i
  · rfl
  · obtain ⟨clients, c, listed, -⟩ := turn_eq_some turn
    rw [unlisted] at listed
    cases listed

/-- The client that the code chooses is that whose turn it is. -/
theorem chosen_eq_turn (inRange : s.InRange) (serviceName : String) :
    (s.chosen serviceName).map (·.1) = s.turn serviceName := by
  rcases listed : s.clientMap serviceName with _ | clients
  · rw [chosen, choose, listed, turn_unlisted listed]
    rfl
  · rw [chosen, choose_eq inRange listed]
    rcases turn : s.turn serviceName with _ | i
    · rfl
    · obtain ⟨clients', c, listed', there, -⟩ := turn_eq_some turn
      obtain rfl := Option.some.inj (listed.symm.trans listed')
      simp [there]

/-! ## The invariant -/

theorem lastIdx_sendMsg (inRange : s.InRange) (head : CMsgHead) (msg : CMsg) (ev : Addr)
    (written : List Bool) (serviceName : String) :
    (s.sendMsg codec head msg ev written).2.clientMapLastIdx serviceName =
      if serviceName = head.serviceName
      then (s.turn serviceName).getD (s.clientMapLastIdx serviceName)
      else s.clientMapLastIdx serviceName := by
  rw [sendMsg_lastIdx]
  rcases listed : s.clientMap head.serviceName with _ | clients
  · rw [choose, listed, Option.map_none]
    dsimp only
    by_cases same : serviceName = head.serviceName
    · rw [if_pos same, same, turn_unlisted listed, Option.getD_none]
    · rw [if_neg same]
  · rw [choose_eq inRange listed]
    dsimp only
    by_cases same : serviceName = head.serviceName
    · subst same
      rw [if_pos rfl, Function.update_self]
      rcases s.turn head.serviceName with _ | i <;> rfl
    · rw [if_neg same, Function.update_of_ne same]

theorem InRange.init : ({} : CServiceProxy).InRange := by
  intro serviceName clients listed
  cases listed

theorem clientMap_set (s : CServiceProxy) (id : ProxyId) (c : CServiceProxyClient) :
    (s.set id c).clientMap =
      Function.update s.clientMap id.1 ((s.clientMap id.1).map (·.set id.2 c)) := rfl

theorem InRange.set (inRange : s.InRange) (id : ProxyId) (c : CServiceProxyClient) :
    (s.set id c).InRange := by
  intro serviceName clients listed
  by_cases same : serviceName = id.1
  · subst same
    rw [clientMap_set, Function.update_self] at listed
    obtain ⟨old, there, rfl⟩ := Option.map_eq_some_iff.mp listed
    rw [List.length_set]
    exact inRange id.1 old there
  · rw [clientMap_set, Function.update_of_ne same] at listed
    exact inRange serviceName clients listed

theorem InRange.discover (inRange : s.InRange) (serviceName ip : String) (port : Int)
    (lib : Libevent) : (s.discover serviceName ip port lib).InRange := by
  unfold CServiceProxy.discover
  dsimp only
  split
  · exact inRange
  · intro name clients listed
    dsimp only at listed ⊢
    by_cases same : name = serviceName
    · subst same
      rw [Function.update_self] at listed ⊢
      obtain rfl := Option.some.inj listed
      simp
    · rw [Function.update_of_ne same] at listed ⊢
      exact inRange name clients listed

/-- The connectivity decides whose turn it is, so a turn is within a list of the same length. -/
theorem turn_lt {i : Nat} (turn : s.turn serviceName = some i) :
    i < (s.connectivity serviceName).length :=
  RoundRobin.next_lt turn

theorem length_connectivity {clients : List CServiceProxyClient}
    (listed : s.clientMap serviceName = some clients) :
    (s.connectivity serviceName).length = clients.length := by
  rw [connectivity, listed, List.length_map, Option.getD_some]

variable (codec) in
/-- `sendMsg` changes one client of a list at most, and that not in its connectivity. -/
theorem clientMap_sendMsg (head : CMsgHead) (msg : CMsg) (ev : Addr) (written : List Bool) :
    (s.sendMsg codec head msg ev written).2.clientMap = s.clientMap ∨
      ∃ i c, s.client? (head.serviceName, i) = some c ∧
        (s.sendMsg codec head msg ev written).2.clientMap =
          (s.set (head.serviceName, i) (c.sendMsg codec head msg ev written).2).clientMap := by
  rcases chosen : s.chosen head.serviceName with _ | ⟨i, c⟩
  · exact .inl (sendMsg_none codec head msg ev written chosen).2.1
  · exact .inr ⟨i, c, client?_chosen chosen, (sendMsg_some codec head msg ev written chosen).2.1⟩

/-- A value of the clients is as it was in all lists, when it is the same for the client that
takes the place of another. -/
theorem map_clients_set {α : Type} (f : CServiceProxyClient → α) {id : ProxyId}
    {c c' : CServiceProxyClient} (client : s.client? id = some c) (same : f c' = f c)
    (serviceName : String) :
    (((s.set id c').clientMap serviceName).getD []).map f =
      ((s.clientMap serviceName).getD []).map f := by
  by_cases own : serviceName = id.1
  · subst own
    obtain ⟨clients, listed, there⟩ := Option.bind_eq_some_iff.mp client
    have lt := (List.getElem?_eq_some_iff.mp there).1
    have value := (List.getElem?_eq_some_iff.mp there).2
    rw [clientMap_set, Function.update_self, listed, Option.map_some, Option.getD_some,
      Option.getD_some, List.map_set]
    refine List.ext_getElem? fun j => ?_
    rw [List.getElem?_set]
    split
    next here =>
      subst here
      simp [lt, same, value]
    · rfl
  · rw [clientMap_set, Function.update_of_ne own]

theorem connectivity_set {id : ProxyId} {c c' : CServiceProxyClient}
    (client : s.client? id = some c) (same : c'.task.isConnected = c.task.isConnected)
    (serviceName : String) :
    (s.set id c').connectivity serviceName = s.connectivity serviceName :=
  map_clients_set (·.task.isConnected) client same serviceName

theorem length_clients_sendMsg (head : CMsgHead) (msg : CMsg) (ev : Addr) (written : List Bool)
    {clients : List CServiceProxyClient}
    (listed : (s.sendMsg codec head msg ev written).2.clientMap serviceName = some clients) :
    ∃ old, s.clientMap serviceName = some old ∧ old.length = clients.length := by
  rcases clientMap_sendMsg codec head msg ev written with same | ⟨i, c, -, same⟩
  · rw [same] at listed
    exact ⟨clients, listed, rfl⟩
  · rw [same, clientMap_set] at listed
    by_cases own : serviceName = head.serviceName
    · subst own
      rw [Function.update_self] at listed
      obtain ⟨old, there, rfl⟩ := Option.map_eq_some_iff.mp listed
      exact ⟨old, there, List.length_set.symm⟩
    · rw [Function.update_of_ne own] at listed
      exact ⟨clients, listed, rfl⟩

theorem InRange.sendMsg (inRange : s.InRange) (head : CMsgHead) (msg : CMsg) (ev : Addr)
    (written : List Bool) : (s.sendMsg codec head msg ev written).2.InRange := by
  intro serviceName clients listed
  obtain ⟨old, there, length⟩ := length_clients_sendMsg head msg ev written listed
  have before := inRange serviceName old there
  rw [lastIdx_sendMsg inRange, ← length]
  split
  · rcases turn : s.turn serviceName with _ | i
    · exact before
    · rw [Option.getD_some, ← length_connectivity there]
      exact turn_lt turn
  · exact before

/-- Every step but a `sendMsg` and a round of `mainFunc` changes a client at most. -/
theorem step_cases {event : Event} (step : s.step codec event = some s') :
    (∃ head msg ev written, event = .sendMsg head msg ev written ∧
      s' = (s.sendMsg codec head msg ev written).2) ∨
    (∃ serviceName ip port lib, event = .discover serviceName ip port lib ∧
      s' = s.discover serviceName ip port lib) ∨
    (∀ serviceName, event.sendsTo serviceName = false) ∧ (s' = s ∨ ∃ id c, s' = s.set id c) := by
  cases event with
  | sendMsg head msg ev written =>
    exact .inl ⟨head, msg, ev, written, rfl, (Option.some.inj step).symm⟩
  | discover serviceName ip port lib =>
    exact .inr (.inl ⟨serviceName, ip, port, lib, rfl, (Option.some.inj step).symm⟩)
  | delEvent ev =>
    refine .inr (.inr ⟨fun _ => rfl, ?_⟩)
    by_cases null : ev = 0
    · exact .inl (by simpa [CServiceProxy.step, delEvent, null] using step.symm)
    · obtain ⟨id, c, -, -, rfl⟩ := (delEvent_eq_some null).mp step
      exact .inr ⟨id, _, rfl⟩
  | proxyEvent id what =>
    obtain ⟨c, -, step⟩ := Option.bind_eq_some_iff.mp step
    obtain ⟨task, -, step⟩ := Option.bind_eq_some_iff.mp step
    exact .inr (.inr ⟨fun _ => rfl, .inr ⟨id, _, (Option.some.inj step).symm⟩⟩)
  | reconnect id lib =>
    obtain ⟨c, -, step⟩ := Option.bind_eq_some_iff.mp step
    exact .inr (.inr ⟨fun _ => rfl, .inr ⟨id, _, (Option.some.inj step).symm⟩⟩)

theorem machine_preserves_inRange : (machine codec).Preserves (fun _ _ => True) InRange := by
  intro s event s' inRange _ step
  rcases step_cases step with ⟨head, msg, ev, written, -, rfl⟩ |
    ⟨serviceName, ip, port, lib, -, rfl⟩ | ⟨-, rfl | ⟨id, c, rfl⟩⟩
  · exact inRange.sendMsg head msg ev written
  · exact inRange.discover serviceName ip port lib
  · exact inRange
  · exact inRange.set id c

/-! ## One call -/

theorem forwards_turn (inRange : s.InRange) (head : CMsgHead) (msg : CMsg) (ev : Addr)
    (written : List Bool) : s.Forwards codec head msg ev written (s.turn head.serviceName) := by
  rw [← chosen_eq_turn inRange]
  rcases chosen : s.chosen head.serviceName with _ | ⟨i, c⟩
  · obtain ⟨ret, lists, -⟩ := sendMsg_none codec head msg ev written chosen
    exact ⟨ret, client?_congr lists⟩
  · have ret := (sendMsg_some codec head msg ev written chosen).1
    have there := client?_chosen chosen
    have turn : s.turn head.serviceName = some i := by
      rw [← chosen_eq_turn inRange, chosen]
      rfl
    obtain ⟨clients, c', listed, at_i, connected⟩ := turn_eq_some turn
    have same : s.client? (head.serviceName, i) = some c' := by
      rw [client?, listed]
      exact at_i
    obtain rfl := Option.some.inj (there.symm.trans same)
    exact ⟨c, there, connected, ret, client?_sendMsg codec head msg ev written chosen⟩

/-! ## Many calls -/

theorem connectivity_sendMsg (head : CMsgHead) (msg : CMsg) (ev : Addr) (written : List Bool)
    (serviceName : String) : (s.sendMsg codec head msg ev written).2.connectivity serviceName =
      s.connectivity serviceName := by
  rcases clientMap_sendMsg codec head msg ev written with same | ⟨i, c, there, same⟩
  · rw [connectivity, connectivity, same]
  · have kept : (s.set (head.serviceName, i) (c.sendMsg codec head msg ev written).2).connectivity
        serviceName = s.connectivity serviceName :=
      connectivity_set there
        (CComeTask.sendMsg_isConnected codec (CServiceProxyClient.headTo head ev) msg written c.task)
        serviceName
    rw [← kept, connectivity, connectivity, same]

/-- Where the list stays as it is, only the calls for the service move the last index. -/
theorem lastIdx_step (inRange : s.InRange) {event : Event} (step : s.step codec event = some s')
    (steady : s.Steady codec serviceName event) :
    s'.clientMapLastIdx serviceName =
      if event.sendsTo serviceName
      then (s.turn serviceName).getD (s.clientMapLastIdx serviceName)
      else s.clientMapLastIdx serviceName := by
  have same := steady s' step
  rcases step_cases step with ⟨head, msg, ev, written, rfl, rfl⟩ |
    ⟨name, ip, port, lib, rfl, rfl⟩ | ⟨other, rfl | ⟨id, c, rfl⟩⟩
  · rw [lastIdx_sendMsg inRange]
    simp [Event.sendsTo, eq_comm]
  · have other : (Event.discover name ip port lib).sendsTo serviceName = false := rfl
    rw [other, if_neg Bool.false_ne_true]
    unfold discover at same ⊢
    dsimp only at same ⊢
    split at same
    next known => rw [if_pos known]
    next unknown =>
      rw [if_neg unknown]
      -- a client more would be seen in the connectivity
      have own : serviceName ≠ name := by
        rintro rfl
        have length := congrArg List.length same
        simp [connectivity] at length
      exact Function.update_of_ne own ..
  · rw [other, if_neg Bool.false_ne_true]
  · rw [other, if_neg Bool.false_ne_true]
    rfl

theorem forwarded_eq_turns {events : List Event} (inRange : s.InRange)
    (run : (machine codec).run s events = some s')
    (steady : (machine codec).Along (Steady codec serviceName) s events) {i : Nat}
    (up : (s.connectivity serviceName)[i]? = some true)
    (lt : s.clientMapLastIdx serviceName < (s.connectivity serviceName).length) :
    forwarded codec serviceName s events =
      RoundRobin.turns (fun j => (s.connectivity serviceName)[j]? = some true)
        (s.connectivity serviceName).length (events.countP (·.sendsTo serviceName))
        (s.clientMapLastIdx serviceName) := by
  induction events generalizing s with
  | nil => rfl
  | cons event events ih =>
    obtain ⟨t, step, rest⟩ := Option.bind_eq_some_iff.mp run
    have same := steady.1 t step
    have moved := lastIdx_step inRange step steady.1
    have i_lt := (List.getElem?_eq_some_iff.mp up).1
    have somebody : (s.turn serviceName).isSome :=
      RoundRobin.next_isSome (p := fun j => (s.connectivity serviceName)[j]? = some true) lt i_lt up
    obtain ⟨next, turn⟩ := Option.isSome_iff_exists.mp somebody
    have step' : s.step codec event = some t := step
    rw [forwarded, step', chosen_eq_turn inRange, turn, List.countP_cons]
    have later := ih (machine_preserves_inRange s event t inRange trivial step) rest
      (steady.2 t step) (same ▸ up)
    rw [same, moved] at later
    by_cases sends : event.sendsTo serviceName
    · rw [if_pos sends, turn, Option.getD_some] at later
      rw [if_pos sends, if_pos sends, RoundRobin.turns]
      have found : RoundRobin.next (fun j => (s.connectivity serviceName)[j]? = some true)
        (s.connectivity serviceName).length (s.clientMapLastIdx serviceName) = some next := turn
      rw [found]
      exact congrArg (next :: ·) (later (turn_lt turn))
    · rw [if_neg sends] at later
      rw [if_neg sends, if_neg sends]
      exact later lt

theorem count_up (up : List Bool) :
    Nat.count (fun i => up[i]? = some true) up.length = up.countP (· = true) := by
  induction up with
  | nil => rfl
  | cons b up ih =>
    rw [List.length_cons, Nat.count_succ', List.countP_cons, ← ih]
    simp

/-- Over any row of calls for a service, whatever else happens in the meantime, the connected
clients get the same number of messages, or one of them one more than another. -/
theorem forwarded_fair {events : List Event} (inRange : s.InRange)
    (run : (machine codec).run s events = some s')
    (steady : (machine codec).Along (Steady codec serviceName) s events) {i : Nat}
    (up : (s.connectivity serviceName)[i]? = some true) :
    let k := events.countP (·.sendsTo serviceName)
    let m := (s.connectivity serviceName).countP (· = true)
    (forwarded codec serviceName s events).count i = k / m ∨
      (forwarded codec serviceName s events).count i = (k + m - 1) / m := by
  have i_lt := (List.getElem?_eq_some_iff.mp up).1
  have lt : s.clientMapLastIdx serviceName < (s.connectivity serviceName).length := by
    rcases listed : s.clientMap serviceName with _ | clients
    · simp [connectivity, listed] at i_lt
    · rw [length_connectivity listed]
      exact inRange serviceName clients listed
  dsimp only
  rw [forwarded_eq_turns inRange run steady up lt, ← count_up]
  exact RoundRobin.count_turns_fair lt i_lt up _

/-- In every state that the proxy reaches, the last index of a service is within its list,
`sendMsg` forwards to the client whose turn it is and to no other, and over any row of calls with
the same list and connectivity each connected client has its share, rounded down or up. -/
theorem sendMsg_balanced (codec : HeadCodec) {history : List Event}
    (reached : (machine codec).run {} history = some s) (serviceName : String) :
    (∀ clients, s.clientMap serviceName = some clients →
      s.clientMapLastIdx serviceName < clients.length) ∧
    (∀ head msg ev written, head.serviceName = serviceName →
      s.Forwards codec head msg ev written (s.turn serviceName)) ∧
    ∀ calls s', (machine codec).run s calls = some s' →
      (machine codec).Along (Steady codec serviceName) s calls →
      ∀ i, (s.connectivity serviceName)[i]? = some true →
        let k := calls.countP (·.sendsTo serviceName)
        let m := (s.connectivity serviceName).countP (· = true)
        (forwarded codec serviceName s calls).count i = k / m ∨
          (forwarded codec serviceName s calls).count i = (k + m - 1) / m := by
  have inRange := (machine codec).run_invariant_always machine_preserves_inRange .init reached
  refine ⟨inRange serviceName, ?_, fun calls s' run steady i up =>
    forwarded_fair inRange run steady up⟩
  rintro head msg ev written rfl
  exact forwards_turn inRange head msg ev written

theorem steady_sendMsg (serviceName : String) (head : CMsgHead) (msg : CMsg) (ev : Addr)
    (written : List Bool) : s.Steady codec serviceName (.sendMsg head msg ev written) := by
  intro t step
  obtain rfl := Option.some.inj step
  exact connectivity_sendMsg head msg ev written serviceName

/-- Two directory services, both connected. -/
def twoUp : List Event :=
  [.discover "dir" "127.0.0.1" 20011 {}, .discover "dir" "127.0.0.1" 20012 {},
    .proxyEvent ("dir", 0) { connected := true }, .proxyEvent ("dir", 1) { connected := true }]

def threeCalls : List Event :=
  List.replicate 3 (.sendMsg { serviceName := "dir" } (.ofBytes [1]) 64 [])

open Library.Wire.Reader

/-- Of three messages the second service is sent one or two. -/
theorem sendMsg_balanced_two : ∃ s, (machine CMsgHead.codec).run {} twoUp = some s ∧
    s.clientMapLastIdx "dir" < 2 ∧
    ((forwarded CMsgHead.codec "dir" s threeCalls).count 1 = 1 ∨
      (forwarded CMsgHead.codec "dir" s threeCalls).count 1 = 2) := by
  have trace : ((machine CMsgHead.codec).run {} twoUp).map (fun s =>
      (s.connectivity "dir", (s.clientMap "dir").map (·.length))) =
      some ([true, true], some 2) := by decide +kernel
  obtain ⟨s, reached, values⟩ := Option.map_eq_some_iff.mp trace
  obtain ⟨up, two⟩ := Prod.mk.inj values
  obtain ⟨clients, listed, length⟩ := Option.map_eq_some_iff.mp two
  obtain ⟨inRange, -, fair⟩ := sendMsg_balanced CMsgHead.codec reached "dir"
  have steady : (machine CMsgHead.codec).Along (Steady CMsgHead.codec "dir") s threeCalls :=
    ⟨steady_sendMsg "dir" _ _ _ _, fun _ _ => ⟨steady_sendMsg "dir" _ _ _ _, fun _ _ =>
      ⟨steady_sendMsg "dir" _ _ _ _, fun _ _ => trivial⟩⟩⟩
  have shares := fair threeCalls _ rfl steady 1 (by rw [up]; rfl)
  rw [up] at shares
  exact ⟨s, reached, length ▸ inRange clients listed, shares⟩

end CServiceProxy

end MicroserviceFramework.Gateway
