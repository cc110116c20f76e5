import MicroserviceFramework.Gateway.Balancing
import MicroserviceFramework.Library.Collected
import MicroserviceFramework.Platform.ClientTask
import MicroserviceFramework.Register.Registry

/-!
# One proxy for each backend

A turn of `mainFunc` compares the services of the registry with the addresses that the proxies have
in their tasks. These were copied through a field of 16 bytes, so an address that does not come
back from it as it was is never found, and is added again at every turn.
-/

namespace MicroserviceFramework.Gateway

open Library Platform
open Library.Wire.Kind (utf8 zero_mem_utf8)
open Auth (cstr cstr_eq_self)
open Register (services)

/-- An address as its bytes and the port. -/
abbrev Address := List UInt8 × Int

/-- The address of a service in the registry. -/
def addressOf (service : CService) : Address := (utf8 service.ip, service.port.toInt)

namespace CServiceProxyClient

/-- The address that `mainFunc` compares. -/
def address (c : CServiceProxyClient) : Address := (c.getServerIp, c.serverPort)

end CServiceProxyClient

/-- What comes back of an address that was set. -/
def readBack (ip : String) (port : Int) : List UInt8 :=
  { task := { serverIp := cstr ip }, serverPort := port : CServiceProxyClient }.getServerIp

namespace CServiceProxy

/-- The addresses of the proxies of a service, in their order. -/
def addresses (s : CServiceProxy) (serviceName : String) : List Address :=
  ((s.clientMap serviceName).getD []).map (·.address)

/-- The services of one name. What libevent does when a proxy starts is given by its place. -/
def discoverAll (start : ProxyId → Libevent) (serviceName : String) (list : CServiceList)
    (s : CServiceProxy) : CServiceProxy :=
  list.foldl (fun s service => s.discover serviceName service.ip service.port.toInt
    (start (serviceName, (s.addresses serviceName).length))) s

/-- The loop over all proxies: one that is not connected connects, unless it is at it. -/
def reconnectAll (reconnect : ProxyId → Libevent) (s : CServiceProxy) : CServiceProxy :=
  { s with
    clientMap := fun name => (s.clientMap name).map (·.mapIdx fun i c =>
      { c with task := c.task.autoConnectTimerCb (reconnect (name, i)) }) }

/-- A turn of the loop of `mainFunc`, with what `getAllService` returns. -/
def mainFunc (serviceMap : Option CServiceMap) (start reconnect : ProxyId → Libevent)
    (s : CServiceProxy) : CServiceProxy :=
  match serviceMap with
  | none => s
  | some map =>
    (map.serviceMap.entries.foldl (fun s entry => s.discoverAll start entry.1 entry.2) s).reconnectAll
      reconnect

end CServiceProxy

/-! ## Turns, and what happens in between -/

/-- The proxy, and what the registry has listed under each name so far. -/
structure Backends where
  proxy : CServiceProxy := {}
  listed : String → List Address := fun _ => []

namespace Backends

inductive Label where
  | mainFunc (serviceMap : Option CServiceMap) (start reconnect : ProxyId → Libevent)
  /-- What the connections do, and what becomes of the proxies' own. -/
  | meanwhile (event : CServiceProxy.Event)

def step (codec : HeadCodec) (s : Backends) : Label → Option Backends
  | .mainFunc serviceMap start reconnect =>
    some {
      proxy := s.proxy.mainFunc serviceMap start reconnect
      listed := fun name => s.listed name ++ (services serviceMap name).map addressOf }
  | .meanwhile (.discover ..) => none
  | .meanwhile event => (s.proxy.step codec event).map fun proxy => { s with proxy := proxy }

def machine (codec : HeadCodec) : Machine Backends Label := ⟨step codec⟩

/-- Of every name but the gateway's there is a proxy for each address that was listed, and no
other, so there are as many proxies as addresses. -/
structure OnePerBackend (s : Backends) : Prop where
  distinct : ∀ name, name ≠ API_GATEWAY_NAME → (s.proxy.addresses name).Nodup
  listed : ∀ name, name ≠ API_GATEWAY_NAME →
    ∀ a, a ∈ s.proxy.addresses name ↔ a ∈ s.listed name
  count : ∀ name, name ≠ API_GATEWAY_NAME →
    (s.proxy.addresses name).length = (s.listed name).toFinset.card

/-- The step leaves one proxy for each backend, with the earlier ones in place, and the map of a
turn adds nothing when it comes again. -/
def KeepsOne (codec : HeadCodec) (s : Backends) (l : Label) : Prop :=
  ∀ t, s.step codec l = some t → t.OnePerBackend ∧ ∀ name, name ≠ API_GATEWAY_NAME →
    s.proxy.addresses name <+: t.proxy.addresses name ∧
    ∀ serviceMap start reconnect, l = .mainFunc serviceMap start reconnect →
      ∀ start' reconnect', (t.proxy.mainFunc serviceMap start' reconnect').addresses name =
        t.proxy.addresses name

/-- Every address that a turn finds, of a name but the gateway's, comes back from the field. -/
def ReadsBack (_ : Backends) : Label → Prop
  | .mainFunc serviceMap _ _ => ∀ name, name ≠ API_GATEWAY_NAME →
      ∀ service ∈ services serviceMap name, readBack service.ip service.port.toInt = utf8 service.ip
  | .meanwhile _ => True

end Backends

/-! ## What is read back -/

/-- A short text without a NUL comes back. -/
theorem readBack_of_short {ip : String} (free : Char.ofNat 0 ∉ ip.toList)
    (short : (utf8 ip).length < 16) (port : Int) : readBack ip port = utf8 ip := by
  have kept : ∀ b ∈ utf8 ip, decide (b ≠ 0) := by
    intro b mem
    rw [decide_eq_true_iff]
    rintro rfl
    exact free ((zero_mem_utf8 ip).mp mem)
  have field : serverIpField ip = utf8 ip ++ 0 :: List.replicate (15 - (utf8 ip).length) 0 := by
    have rest : 16 - (utf8 ip).length = 15 - (utf8 ip).length + 1 := by omega
    rw [serverIpField, List.take_append, List.take_of_length_le (Nat.le_of_lt short),
      List.take_replicate, Nat.min_eq_left (Nat.sub_le _ _), rest, List.replicate_succ]
  rw [readBack, CServiceProxyClient.getServerIp]
  dsimp only
  rw [cstr_eq_self free, field, List.append_assoc, List.takeWhile_append_of_pos kept]
  simp

/-- A text that some proxy gives back comes back from the field. -/
theorem readBack_of_getServerIp {c : CServiceProxyClient} {ip : String}
    (same : utf8 ip = c.getServerIp) : readBack ip c.serverPort = utf8 ip := by
  have free : Char.ofNat 0 ∉ ip.toList := by
    intro nul
    have zero := (zero_mem_utf8 ip).mpr nul
    rw [same] at zero
    simpa using List.mem_takeWhile_imp zero
  by_cases short : (utf8 ip).length < 16
  · exact readBack_of_short free short c.serverPort
  · -- the whole field is read, so it has the first 16 bytes
    have length : (serverIpField c.task.serverIp).length = 16 := by simp [serverIpField]
    have field : serverIpField ip = serverIpField c.task.serverIp := by
      have start : utf8 ip <+: serverIpField c.task.serverIp ++
          le32 (c.serverPort % 2 ^ 32).toNat := by
        rw [same]
        exact List.takeWhile_prefix _
      have first := congrArg (List.take 16) (List.prefix_iff_eq_take.mp start)
      rw [List.take_take, Nat.min_eq_left (Nat.le_of_not_lt short), List.take_left' length] at first
      rw [serverIpField, List.take_append_of_le_length (Nat.le_of_not_lt short), first]
    rw [readBack, CServiceProxyClient.getServerIp]
    dsimp only
    rw [cstr_eq_self free, field, same]
    rfl

namespace CServiceProxy

variable {s : CServiceProxy}

theorem addresses_set {id : ProxyId} {c c' : CServiceProxyClient} (client : s.client? id = some c)
    (same : c'.address = c.address) (serviceName : String) :
    (s.set id c').addresses serviceName = s.addresses serviceName :=
  map_clients_set (·.address) client same serviceName

theorem address_task (c : CServiceProxyClient) {task : CComeTask}
    (same : task.serverIp = c.task.serverIp) :
    CServiceProxyClient.address { c with task := task } = c.address := by
  simp [CServiceProxyClient.address, CServiceProxyClient.getServerIp, same]

/-- Only `mainFunc` adds an address. -/
theorem addresses_step {codec : HeadCodec} {event : Event} {s' : CServiceProxy}
    (other : ∀ serviceName ip port lib, event ≠ .discover serviceName ip port lib)
    (step : s.step codec event = some s') (serviceName : String) :
    s'.addresses serviceName = s.addresses serviceName := by
  cases event with
  | sendMsg head msg ev written =>
    obtain rfl := Option.some.inj step
    rcases clientMap_sendMsg codec head msg ev written with same | ⟨i, c, there, same⟩
    · rw [addresses, addresses, same]
    · have kept : (s.set (head.serviceName, i) (c.sendMsg codec head msg ev written).2).addresses
          serviceName = s.addresses serviceName :=
        addresses_set there (address_task (c.regEvent ev) (CComeTask.sendMsg_serverIp codec
          (some (CServiceProxyClient.headTo head ev)) msg written c.task)) serviceName
      rw [← kept, addresses, addresses, same]
  | delEvent ev =>
    by_cases null : ev = 0
    · have same : some s = some s' := by rw [← step, CServiceProxy.step, delEvent, if_pos null]
      rw [Option.some.inj same]
    · obtain ⟨id, c, -, there, rfl⟩ := (delEvent_eq_some null).mp step
      have kept : (c.delEvent ev).address = c.address := rfl
      exact addresses_set there kept serviceName
  | discover serviceName ip port lib => exact absurd rfl (other serviceName ip port lib)
  | proxyEvent id what =>
    obtain ⟨c, up, step⟩ := Option.bind_eq_some_iff.mp step
    obtain ⟨task, event, step⟩ := Option.bind_eq_some_iff.mp step
    obtain rfl := Option.some.inj step
    have there := (Option.filter_eq_some_iff.mp up).1
    exact addresses_set there (address_task c (CComeTask.eventCb_serverIp event)) serviceName
  | reconnect id lib =>
    obtain ⟨c, there, step⟩ := Option.bind_eq_some_iff.mp step
    obtain rfl := Option.some.inj step
    exact addresses_set there (address_task c (by simp)) serviceName

theorem mem_addresses {ip : String} {port : Int} {serviceName : String} :
    (utf8 ip, port) ∈ s.addresses serviceName ↔ ((s.clientMap serviceName).getD []).any
      fun c => utf8 ip = c.getServerIp ∧ port = c.serverPort := by
  rw [addresses, List.mem_map, List.any_eq_true]
  constructor
  · rintro ⟨c, mem, same⟩
    obtain ⟨text, number⟩ := Prod.mk.inj same
    exact ⟨c, mem, decide_eq_true ⟨text.symm, number.symm⟩⟩
  · rintro ⟨c, mem, same⟩
    obtain ⟨text, number⟩ := of_decide_eq_true same
    exact ⟨c, mem, Prod.ext text.symm number.symm⟩

/-- A service of the registry that comes back from the field is added if it is not there. -/
theorem addresses_discover {ip : String} {port : Int} (serviceName : String)
    (reads : serviceName ≠ API_GATEWAY_NAME → readBack ip port = utf8 ip) (lib : Libevent)
    (name : String) : (s.discover serviceName ip port lib).addresses name =
      if name = serviceName ∧ serviceName ≠ API_GATEWAY_NAME
      then addNew (s.addresses name) (utf8 ip, port) else s.addresses name := by
  by_cases own : serviceName = API_GATEWAY_NAME
  · simp [discover, own]
  by_cases known : (utf8 ip, port) ∈ s.addresses serviceName
  · have found := mem_addresses.mp known
    unfold discover
    dsimp only
    rw [if_pos (.inr found)]
    by_cases same : name = serviceName
    · rw [if_pos ⟨same, own⟩, same, addNew, if_pos known]
    · rw [if_neg (fun both => same both.1)]
  · have unknown := fun found => known (mem_addresses.mpr found)
    have fresh : CServiceProxyClient.address
        { task := (CComeTask.init lib { serverIp := cstr ip, autoDelete := false }).2
          serverPort := port } = (utf8 ip, port) := by
      rw [← reads own]
      simp [CServiceProxyClient.address, CServiceProxyClient.getServerIp, readBack]
    unfold discover
    dsimp only
    rw [if_neg (not_or.mpr ⟨own, unknown⟩)]
    by_cases same : name = serviceName
    · subst same
      rw [if_pos ⟨rfl, own⟩, addNew, if_neg known]
      simp only [addresses, Function.update_self, Option.getD_some, List.map_append,
        List.map_cons, List.map_nil, fresh]
    · rw [if_neg (fun both => same both.1), addresses]
      dsimp only
      rw [Function.update_of_ne same]
      rfl

/-- The services of one name are added to its list. -/
theorem addresses_discoverAll (start : ProxyId → Libevent) {serviceName : String}
    {list : CServiceList} (reads : serviceName ≠ API_GATEWAY_NAME →
      ∀ service ∈ list, readBack service.ip service.port.toInt = utf8 service.ip)
    (name : String) : (s.discoverAll start serviceName list).addresses name =
      if name = serviceName ∧ serviceName ≠ API_GATEWAY_NAME
      then addAll (s.addresses name) (list.map addressOf) else s.addresses name := by
  induction list generalizing s with
  | nil => simp [discoverAll, addAll]
  | cons service list ih =>
    have here := fun other => reads other service List.mem_cons_self
    have rest := fun other service mem => reads other service (List.mem_cons_of_mem _ mem)
    rw [discoverAll, List.foldl_cons, ← discoverAll, ih rest, addresses_discover serviceName here]
    split <;> rfl

theorem addresses_reconnectAll (reconnect : ProxyId → Libevent) (name : String) :
    (s.reconnectAll reconnect).addresses name = s.addresses name := by
  rcases listed : s.clientMap name with _ | clients
  · simp [addresses, reconnectAll, listed]
  · simp only [addresses, reconnectAll, listed, Option.map_some, Option.getD_some]
    apply List.ext_getElem?
    intro i
    rw [List.getElem?_map, List.getElem?_map, List.getElem?_mapIdx]
    rcases clients[i]? with _ | c
    · rfl
    · exact congrArg some (address_task c (by simp))

/-- The entries of the map, whose names are all different. -/
theorem addresses_entries (start : ProxyId → Libevent)
    {entries : List (Sigma fun _ : String => CServiceList)} (nodup : entries.NodupKeys)
    (reads : ∀ name, name ≠ API_GATEWAY_NAME → ∀ service ∈ (entries.dlookup name).getD [],
      readBack service.ip service.port.toInt = utf8 service.ip)
    {name : String} (other : name ≠ API_GATEWAY_NAME) :
    (entries.foldl (fun s entry => s.discoverAll start entry.1 entry.2) s).addresses name =
      addAll (s.addresses name) (((entries.dlookup name).getD []).map addressOf) := by
  induction entries generalizing s with
  | nil => rfl
  | cons entry entries ih =>
    obtain ⟨serviceName, list⟩ := entry
    obtain ⟨missing, distinct⟩ := List.nodupKeys_cons.mp nodup
    have gone : entries.dlookup serviceName = none := List.dlookup_eq_none.mpr missing
    have here : serviceName ≠ API_GATEWAY_NAME →
        ∀ service ∈ list, readBack service.ip service.port.toInt = utf8 service.ip := by
      intro own service mem
      apply reads serviceName own
      rwa [List.dlookup_cons_eq]
    have rest := ih (s := s.discoverAll start serviceName list) distinct (by
      intro name other service mem
      apply reads name other
      by_cases same : name = serviceName
      · rw [same, gone] at mem
        cases mem
      · rwa [List.dlookup_cons_ne entries ⟨serviceName, list⟩ same])
    rw [List.foldl_cons, rest, addresses_discoverAll start here]
    by_cases same : name = serviceName
    · subst same
      rw [if_pos ⟨rfl, other⟩, gone, List.dlookup_cons_eq]
      rfl
    · rw [if_neg (fun both => same both.1),
        List.dlookup_cons_ne entries ⟨serviceName, list⟩ same]

/-- A turn adds the services of every name to its list. -/
theorem addresses_mainFunc {serviceMap : Option CServiceMap} (start reconnect : ProxyId → Libevent)
    (reads : ∀ name, name ≠ API_GATEWAY_NAME → ∀ service ∈ services serviceMap name,
      readBack service.ip service.port.toInt = utf8 service.ip)
    {name : String} (other : name ≠ API_GATEWAY_NAME) :
    (s.mainFunc serviceMap start reconnect).addresses name =
      addAll (s.addresses name) ((services serviceMap name).map addressOf) := by
  cases serviceMap with
  | none => rfl
  | some map =>
    rw [mainFunc, addresses_reconnectAll]
    exact addresses_entries start map.serviceMap.nodupKeys reads other

end CServiceProxy

/-! ## One proxy for each backend -/

namespace Backends

variable {codec : HeadCodec} {s t : Backends}

theorem OnePerBackend.init : ({} : Backends).OnePerBackend := by
  constructor <;> intro name _
  · exact List.nodup_nil
  · exact fun a => Iff.rfl
  · rfl

theorem OnePerBackend.of_listed
    (distinct : ∀ name, name ≠ API_GATEWAY_NAME → (s.proxy.addresses name).Nodup)
    (listed : ∀ name, name ≠ API_GATEWAY_NAME →
      ∀ a, a ∈ s.proxy.addresses name ↔ a ∈ s.listed name) : s.OnePerBackend :=
  ⟨distinct, listed, fun name other => length_eq_card (distinct name other) (listed name other)⟩

/-- A turn in which all addresses come back. -/
theorem OnePerBackend.mainFunc (one : s.OnePerBackend) {serviceMap : Option CServiceMap}
    {start reconnect : ProxyId → Libevent} (reads : s.ReadsBack (.mainFunc serviceMap start reconnect)) :
    s.KeepsOne codec (.mainFunc serviceMap start reconnect) := by
  intro t step
  obtain rfl := Option.some.inj step
  have lists : ∀ name, name ≠ API_GATEWAY_NAME →
      (s.proxy.mainFunc serviceMap start reconnect).addresses name =
        addAll (s.proxy.addresses name) ((services serviceMap name).map addressOf) :=
    fun name other => CServiceProxy.addresses_mainFunc start reconnect reads other
  refine ⟨.of_listed ?_ ?_, fun name other => ⟨?_, ?_⟩⟩
  · intro name other
    dsimp only
    rw [lists name other]
    exact nodup_addAll (one.distinct name other) _
  · intro name other a
    dsimp only
    rw [lists name other, mem_addAll, one.listed name other a, List.mem_append]
  · dsimp only
    rw [lists name other]
    exact prefix_addAll _ _
  · rintro _ _ _ ⟨⟩ start' reconnect'
    rw [CServiceProxy.addresses_mainFunc start' reconnect' reads other]
    dsimp only
    rw [lists name other]
    exact addAll_of_subset fun a mem => mem_addAll.mpr (.inr mem)

/-- What happens between the turns. -/
theorem OnePerBackend.meanwhile (one : s.OnePerBackend) (event : CServiceProxy.Event) :
    s.KeepsOne codec (.meanwhile event) := by
  intro t step
  have same : ∀ name, t.proxy.addresses name = s.proxy.addresses name ∧ t.listed = s.listed := by
    intro name
    cases event with
    | discover serviceName ip port lib => cases step
    | _ =>
      simp only [Backends.step, Option.map_eq_some_iff] at step
      obtain ⟨proxy, moved, rfl⟩ := step
      exact ⟨CServiceProxy.addresses_step (by simp) moved name, rfl⟩
  refine ⟨.of_listed ?_ ?_, fun name other => ⟨?_, ?_⟩⟩
  · intro name other
    rw [(same name).1]
    exact one.distinct name other
  · intro name other a
    rw [(same name).1, (same name).2]
    exact one.listed name other a
  · rw [(same name).1]
  · intro _ _ _ turn
    cases turn

theorem machine_preserves_one : (machine codec).Preserves (KeepsOne codec) OnePerBackend :=
  fun _ _ t _ keeps step => (keeps t step).1

theorem keepsOne_iff (one : s.OnePerBackend) (l : Label) : s.KeepsOne codec l ↔ s.ReadsBack l := by
  constructor
  · intro keeps
    cases l with
    | meanwhile event => trivial
    | mainFunc serviceMap start reconnect =>
      intro name other service mem
      have after := (keeps _ rfl).1.listed name other (addressOf service)
      have there := after.mpr (List.mem_append_right _ (List.mem_map_of_mem mem))
      obtain ⟨c, -, same⟩ := List.mem_map.mp there
      obtain ⟨text, port⟩ := Prod.mk.inj same
      rw [← port]
      exact readBack_of_getServerIp text.symm
  · intro reads
    cases l with
    | meanwhile event => exact one.meanwhile event
    | mainFunc serviceMap start reconnect => exact one.mainFunc reads

/-- In a run of turns, with anything in between, there is one proxy for each backend after every
step, and a map that comes again adds nothing, exactly if every address that a turn finds comes
back from the field. -/
theorem one_proxy_per_backend (codec : HeadCodec) (labels : List Label) :
    (machine codec).Along (KeepsOne codec) {} labels ↔ (machine codec).Along ReadsBack {} labels :=
  (machine codec).along_congr_while machine_preserves_one (fun _ l one => keepsOne_iff one l) .init
    labels

/-- So it is for addresses of at most 15 bytes. -/
theorem one_proxy_of_short (codec : HeadCodec) {labels : List Label}
    (short : ∀ serviceMap start reconnect, .mainFunc serviceMap start reconnect ∈ labels →
      ∀ name, ∀ service ∈ services serviceMap name,
        Char.ofNat 0 ∉ service.ip.toList ∧ (utf8 service.ip).length < 16) :
    (machine codec).Along (KeepsOne codec) {} labels := by
  apply ((machine codec).along_congr_while machine_preserves_one (fun _ l one => keepsOne_iff one l)
    .init labels).mpr
  have reads : ∀ l ∈ labels, ({} : Backends).ReadsBack l := by
    rintro (⟨serviceMap, start, reconnect⟩ | event) mem
    · intro name other service found
      obtain ⟨free, fits⟩ := short serviceMap start reconnect mem name service found
      exact readBack_of_short free fits _
    · trivial
  exact (machine codec).along_of_mem (P := ReadsBack {}) reads {}

/-- A directory service that was registered with an IPv6 address. -/
def longAddress : CServiceMap :=
  { serviceMap := (∅ : AList fun _ : String => CServiceList).insert "dir"
      [{ name := "dir", ip := "2001:db8::8a2e:370:7334", port := 20011 }] }

def twoTurns : List Label :=
  List.replicate 2 (.mainFunc (some longAddress) (fun _ => {}) fun _ => {})

open Library.Wire.Reader

/-- It has two proxies after two turns. -/
theorem one_proxy_per_backend_fails :
    ¬(machine CMsgHead.codec).Along (KeepsOne CMsgHead.codec) {} twoTurns ∧
      ((machine CMsgHead.codec).run {} twoTurns).map
        (fun s => ((s.proxy.clientMap "dir").getD []).length) = some 2 := by
  refine ⟨fun keeps => ?_, by decide +kernel⟩
  have reads := (keepsOne_iff .init _).mp keeps.1
  have back := reads "dir" (by decide) { name := "dir", ip := "2001:db8::8a2e:370:7334", port := 20011 }
    (by decide +kernel)
  exact absurd back (by decide +kernel)

end Backends

end MicroserviceFramework.Gateway
