import MicroserviceFramework.Gateway.Backends
import MicroserviceFramework.Register.Freshness

/-!
# The gateway and the registry

The gateway's proxies, its client of the registry and the registry itself, in one system. A turn
of `mainFunc` takes the map of `getAllService` and goes through its services one by one; between any
two of them requests are forwarded, services register, and responses of the registry arrive.

The registry is empty at the start and never starts again, the gateway has no cache file at first,
and its file can always be opened. Then there are proxies only for what was registered, a turn that
is through leaves none out, and a service is found by the first turn after the answer to a query
that was made later. Addresses are as the proxies read them back, from 16 bytes.
-/

namespace MicroserviceFramework.Gateway

open Library Platform
open Library.Wire (Message Protobuf)
open Library.Wire.Kind (utf8)
open Register (services Discovery Valid)

/-- The address that the proxy for a service has, which is cut to what fits into 16 bytes. -/
def proxyAddress (service : CService) : Address :=
  (readBack service.ip service.port.toInt, service.port.toInt)

/-- The services of all lists, in the order in which a turn comes to them. -/
def listing (map : Option CServiceMap) : List (String × CService) :=
  (map.getD {}).serviceMap.entries.flatMap fun entry => entry.2.map (entry.1, ·)

structure Cluster where
  discovery : Discovery
  proxy : CServiceProxy := {}
  /-- What the turn has still to come to, of the map that it copied. -/
  pbMap : List (String × CService) := []

namespace Cluster

inductive Label where
  /-- The registry, and the gateway's client of it. -/
  | register (event : Register.Event)
  /-- The next turn takes the map. -/
  | getAllService
  /-- The turn comes to the next service. -/
  | discover (lib : Libevent)
  /-- Requests are forwarded, and proxies connect or lose their connections. -/
  | meanwhile (event : CServiceProxy.Event)

def step [Protobuf] (codec : HeadCodec) (s : Cluster) : Label → Option Cluster
  -- only a turn takes the map
  | .register .getAllService => none
  | .register event =>
    (s.discovery.step event).map fun discovery => { s with discovery := discovery }
  | .getAllService =>
    if s.pbMap = [] then
      (s.discovery.step .getAllService).map fun discovery =>
        { s with discovery := discovery, pbMap := listing discovery.client.pbClientMap }
    else none
  | .discover lib =>
    match s.pbMap with
    | [] => none
    | (serviceName, service) :: pbMap =>
      some { s with
        proxy := s.proxy.discover serviceName service.ip service.port.toInt lib, pbMap := pbMap }
  | .meanwhile (.discover ..) => none
  | .meanwhile event => (s.proxy.step codec event).map fun proxy => { s with proxy := proxy }

def machine [Protobuf] (codec : HeadCodec) : Machine Cluster Label := ⟨step codec⟩

/-- An empty registry and a gateway that was just started. -/
def start (serviceIp : String) (servicePort : Int32) : Cluster where
  discovery := Discovery.start API_GATEWAY_NAME serviceIp servicePort

/-- The services of a name that the last turn took. -/
def taken (s : Cluster) (name : String) : CServiceList :=
  services s.discovery.client.pbClientMap name

/-- Of every name but the gateway's, each address of a proxy is that of a service which the last
turn took, and each such service has a proxy or is still to come. -/
structure Inv (s : Cluster) : Prop where
  discovery : s.discovery.Inv
  valid : Valid s.discovery.serviceMap
  behind : ∀ name, s.taken name <+: s.discovery.cached name
  pbMap : ∀ name service, (name, service) ∈ s.pbMap → service ∈ s.taken name
  proxies : ∀ name, ∀ a ∈ s.proxy.addresses name, name ≠ API_GATEWAY_NAME ∧
    ∃ service ∈ s.taken name, a = proxyAddress service
  covered : ∀ name, name ≠ API_GATEWAY_NAME → ∀ service ∈ s.taken name,
    proxyAddress service ∈ s.proxy.addresses name ∨ (name, service) ∈ s.pbMap

/-! ## One service of a turn -/

theorem mem_listing {map : Option CServiceMap} {name : String} {service : CService} :
    (name, service) ∈ listing map ↔ service ∈ services map name := by
  have nodup := (map.getD {}).serviceMap.nodupKeys
  rw [services, Register.registered, listing, List.mem_flatMap, AList.lookup]
  constructor
  · rintro ⟨⟨key, list⟩, there, mem⟩
    obtain ⟨other, known, same⟩ := List.mem_map.mp mem
    obtain ⟨rfl, rfl⟩ := Prod.mk.inj same
    rw [List.mem_dlookup nodup there]
    exact known
  · intro mem
    rcases found : List.dlookup name (map.getD {}).serviceMap.entries with _ | list
    · rw [found] at mem
      cases mem
    · rw [found] at mem
      exact ⟨⟨name, list⟩, List.of_mem_dlookup found, List.mem_map_of_mem mem⟩

/-- After a turn came to a service, the service has a proxy, and no other address is new. -/
theorem mem_addresses_discover {s : CServiceProxy} {serviceName : String} {service : CService}
    {lib : Libevent} {name : String} {a : Address} :
    a ∈ (s.discover serviceName service.ip service.port.toInt lib).addresses name ↔
      a ∈ s.addresses name ∨
        (name = serviceName ∧ serviceName ≠ API_GATEWAY_NAME ∧ a = proxyAddress service) := by
  by_cases own : serviceName = API_GATEWAY_NAME
  · simp [CServiceProxy.discover, own]
  unfold CServiceProxy.discover
  dsimp only
  by_cases known : (utf8 service.ip, service.port.toInt) ∈ s.addresses serviceName
  · have found := CServiceProxy.mem_addresses.mp known
    rw [if_pos (.inr found)]
    refine ⟨.inl, ?_⟩
    rintro (before | ⟨rfl, -, rfl⟩)
    · exact before
    · -- an address that is found was read back
      obtain ⟨c, -, same⟩ := List.mem_map.mp known
      obtain ⟨text, port⟩ := Prod.mk.inj same
      have back := readBack_of_getServerIp text.symm
      rw [port] at back
      rw [proxyAddress, back]
      exact known
  · have unknown := fun found => known (CServiceProxy.mem_addresses.mpr found)
    rw [if_neg (not_or.mpr ⟨own, unknown⟩)]
    have fresh : CServiceProxyClient.address
        { task := (CComeTask.init lib { serverIp := Auth.cstr service.ip, autoDelete := false }).2
          serverPort := service.port.toInt } = proxyAddress service := by
      simp [CServiceProxyClient.address, CServiceProxyClient.getServerIp, readBack, proxyAddress]
    by_cases same : name = serviceName
    · subst same
      simp only [CServiceProxy.addresses, Function.update_self, Option.getD_some, List.map_append,
        List.map_cons, List.map_nil, fresh, List.mem_append, List.mem_singleton]
      grind
    · rw [CServiceProxy.addresses]
      dsimp only
      rw [Function.update_of_ne same, ← CServiceProxy.addresses]
      grind

/-! ## The invariant -/

variable {codec : HeadCodec} {s t : Cluster}

theorem inv_start (serviceIp : String) (servicePort : Int32) : (start serviceIp servicePort).Inv where
  discovery := Discovery.inv_start _ _ _
  valid := .none
  behind _ := List.nil_prefix
  pbMap _ _ mem := by cases mem
  proxies _ _ mem := by cases mem
  covered _ _ _ mem := by cases mem

/-- Only `getAllService` hands a map out. -/
theorem pbClientMap_step [Protobuf] {d d' : Discovery} {event : Register.Event}
    (other : event ≠ .getAllService) (step : d.step event = some d') :
    d'.client.pbClientMap = d.client.pbClientMap := by
  cases event with
  | getAllService => exact absurd rfl other
  | deliver =>
    simp only [Discovery.step] at step
    split at step
    next response _ _ =>
      obtain rfl := Option.some.inj step
      cases response with
      | registerRes res => rfl
      | getServiceRes map =>
        rcases d.client.getServiceRes_cases map true with same | ⟨map', written⟩
        · exact congrArg (·.pbClientMap) same
        · exact congrArg (·.pbClientMap) written
    · cases step
  | connect clientIp =>
    simp only [Discovery.step] at step
    split at step
    · cases step
    · obtain rfl := Option.some.inj step
      rfl
  | serve =>
    simp only [Discovery.step] at step
    split at step
    · obtain rfl := Option.some.inj step
      rfl
    · cases step
  | loadLocalFile =>
    obtain rfl := Option.some.inj step
    unfold Register.CRegisterClient.loadLocalFile
    split <;> rfl
  | _ =>
    obtain rfl := Option.some.inj step
    rfl

/-- A step of the registry serves a request, or leaves its map. -/
theorem serviceMap_step [Protobuf] {d d' : Discovery} {event : Register.Event}
    (step : d.step event = some d') : d'.serviceMap = d.serviceMap ∨
      ∃ request : Register.Request, d'.serviceMap = request.handle d.serviceMap := by
  cases event with
  | request r =>
    obtain rfl := Option.some.inj step
    exact .inr ⟨r, rfl⟩
  | serve =>
    simp only [Discovery.step] at step
    split at step
    · obtain rfl := Option.some.inj step
      exact .inr ⟨_, rfl⟩
    · cases step
  | connect clientIp =>
    simp only [Discovery.step] at step
    split at step
    · cases step
    · obtain rfl := Option.some.inj step
      exact .inl rfl
  | deliver =>
    simp only [Discovery.step] at step
    split at step
    · obtain rfl := Option.some.inj step
      exact .inl rfl
    · cases step
  | _ =>
    obtain rfl := Option.some.inj step
    exact .inl rfl

theorem valid_step [Protobuf] {d d' : Discovery} {event : Register.Event}
    (valid : Valid d.serviceMap) (step : d.step event = some d') : Valid d'.serviceMap := by
  rcases serviceMap_step step with same | ⟨request, same⟩
  · exact same ▸ valid
  · exact same ▸ request.handle_valid valid

/-- The registry and the client go on, while the turn has what it took. -/
theorem Inv.register [Protobuf] (inv : s.Inv) {event : Register.Event} {discovery : Discovery}
    (other : event ≠ .getAllService) (step : s.discovery.step event = some discovery) :
    Inv { s with discovery := discovery } := by
  obtain ⟨inv', later⟩ := inv.discovery.step step
  have same : taken { s with discovery := discovery } = s.taken := by
    funext name
    rw [taken, pbClientMap_step other step, taken]
  exact {
    discovery := inv'
    valid := valid_step inv.valid step
    behind := fun name => same ▸ (inv.behind name).trans (later name)
    pbMap := same ▸ inv.pbMap
    proxies := same ▸ inv.proxies
    covered := same ▸ inv.covered }

/-- The next turn takes all that the last one took, and more. -/
theorem Inv.getAllService [Protobuf] (inv : s.Inv) {discovery : Discovery}
    (step : s.discovery.step .getAllService = some discovery) :
    Inv { s with discovery := discovery, pbMap := listing discovery.client.pbClientMap } := by
  obtain ⟨inv', later⟩ := inv.discovery.step step
  have valid' := valid_step inv.valid step
  obtain rfl := Option.some.inj step
  have more (name : String) :
      s.taken name <+: services s.discovery.client.loadLocalFile.pbServiceMap name :=
    (inv.behind name).trans (later name)
  exact {
    discovery := inv'
    valid := valid'
    behind := fun name => List.prefix_refl _
    pbMap := fun name service mem => mem_listing.mp mem
    proxies := fun name a mem => by
      obtain ⟨other, service, old, same⟩ := inv.proxies name a mem
      exact ⟨other, service, (more name).subset old, same⟩
    covered := fun name _ service mem => .inr (mem_listing.mpr mem) }

/-- The turn comes to a service, which then has a proxy. -/
theorem Inv.discover (inv : s.Inv) {serviceName : String} {service : CService}
    {pbMap : List (String × CService)} (next : s.pbMap = (serviceName, service) :: pbMap)
    (lib : Libevent) :
    Inv { s with
      proxy := s.proxy.discover serviceName service.ip service.port.toInt lib, pbMap := pbMap } := by
  have here : service ∈ s.taken serviceName := inv.pbMap _ _ (next ▸ List.mem_cons_self)
  exact {
    discovery := inv.discovery
    valid := inv.valid
    behind := inv.behind
    pbMap := fun name other mem => inv.pbMap name other (next ▸ List.mem_cons_of_mem _ mem)
    proxies := fun name a mem => by
      rcases mem_addresses_discover.mp mem with old | ⟨rfl, other, rfl⟩
      · exact inv.proxies name a old
      · exact ⟨other, service, here, rfl⟩
    covered := fun name other known mem => by
      rcases inv.covered name other known mem with there | coming
      · exact .inl (mem_addresses_discover.mpr (.inl there))
      rw [next] at coming
      rcases List.mem_cons.mp coming with same | later
      · obtain ⟨rfl, rfl⟩ := Prod.mk.inj same
        exact .inl (mem_addresses_discover.mpr (.inr ⟨rfl, other, rfl⟩))
      · exact .inr later }

/-- Nothing else makes a proxy, or changes its address. -/
theorem Inv.meanwhile (inv : s.Inv) {proxy : CServiceProxy}
    (same : ∀ name, proxy.addresses name = s.proxy.addresses name) :
    Inv { s with proxy := proxy } where
  discovery := inv.discovery
  valid := inv.valid
  behind := inv.behind
  pbMap := inv.pbMap
  proxies name := by
    dsimp only
    rw [same]
    exact inv.proxies name
  covered name := by
    dsimp only
    rw [same]
    exact inv.covered name

/-- A step of the registry or of its client, the start of a turn, the next service of a turn, or
something that leaves the addresses as they are. -/
theorem step_cases [Protobuf] {label : Label} (step : s.step codec label = some t) :
    (∃ event discovery, label = .register event ∧ event ≠ .getAllService ∧
      s.discovery.step event = some discovery ∧ t = { s with discovery := discovery }) ∨
    (∃ discovery, s.discovery.step .getAllService = some discovery ∧ label = .getAllService ∧
      t = { s with
        discovery := discovery, pbMap := listing discovery.client.pbClientMap }) ∨
    (∃ serviceName service pbMap lib, s.pbMap = (serviceName, service) :: pbMap ∧ t = { s with
      proxy := s.proxy.discover serviceName service.ip service.port.toInt lib, pbMap := pbMap }) ∨
    (∃ proxy, (∀ name, proxy.addresses name = s.proxy.addresses name) ∧
      t = { s with proxy := proxy }) := by
  cases label with
  | register event =>
    cases event with
    | getAllService => cases step
    | _ =>
      simp only [Cluster.step, Option.map_eq_some_iff] at step
      obtain ⟨discovery, moved, rfl⟩ := step
      exact .inl ⟨_, discovery, rfl, by simp, moved, rfl⟩
  | getAllService =>
    obtain ⟨-, step⟩ := Option.ite_none_right_eq_some.mp step
    obtain ⟨discovery, moved, rfl⟩ := Option.map_eq_some_iff.mp step
    exact .inr (.inl ⟨discovery, moved, rfl, rfl⟩)
  | discover lib =>
    simp only [Cluster.step] at step
    split at step
    · cases step
    next next =>
      obtain rfl := Option.some.inj step
      exact .inr (.inr (.inl ⟨_, _, _, lib, next, rfl⟩))
  | meanwhile event =>
    cases event with
    | discover serviceName ip port lib => cases step
    | _ =>
      simp only [Cluster.step, Option.map_eq_some_iff] at step
      obtain ⟨proxy, moved, rfl⟩ := step
      exact .inr (.inr (.inr ⟨proxy, CServiceProxy.addresses_step (by simp) moved, rfl⟩))

theorem Inv.step [Protobuf] (inv : s.Inv) {label : Label}
    (step : s.step codec label = some t) : t.Inv := by
  rcases step_cases step with ⟨event, discovery, -, other, moved, rfl⟩ | ⟨discovery, moved, -, rfl⟩ |
    ⟨serviceName, service, pbMap, lib, next, rfl⟩ | ⟨proxy, same, rfl⟩
  · exact inv.register other moved
  · exact inv.getAllService moved
  · exact inv.discover next lib
  · exact inv.meanwhile same

theorem machine_preserves_inv [Protobuf] : (machine codec).Preserves (fun _ _ => True) Inv :=
  fun _ _ _ inv _ step => inv.step step

theorem inv_run [Protobuf] {serviceIp : String} {servicePort : Int32} {labels : List Label}
    (run : (machine codec).run (start serviceIp servicePort) labels = some s) : s.Inv :=
  (machine codec).run_invariant_always machine_preserves_inv (inv_start serviceIp servicePort) run

/-- What a turn took is in the registry. -/
theorem Inv.taken_le (inv : s.Inv) (name : String) :
    s.taken name <+: services s.discovery.serviceMap name :=
  (inv.behind name).trans (inv.discovery.behind name).copy_le

/-- Once the turn is through, the proxies are those of what it took. -/
theorem Inv.proxies_iff (inv : s.Inv) (through : s.pbMap = []) {name : String}
    (other : name ≠ API_GATEWAY_NAME) (a : Address) :
    a ∈ s.proxy.addresses name ↔ ∃ service ∈ s.taken name, a = proxyAddress service := by
  refine ⟨fun mem => (inv.proxies name a mem).2, ?_⟩
  rintro ⟨service, known, rfl⟩
  rcases inv.covered name other service known with there | coming
  · exact there
  · rw [through] at coming
    cases coming

/-- A client that a message goes to has the address of a service with the name that the message is
for. -/
theorem Inv.forwards (inv : s.Inv) {head : CMsgHead} {msg : CMsg} {ev : Addr} {written : List Bool}
    {id : ProxyId}
    (used : (s.proxy.sendMsg codec head msg ev written).2.client? id ≠ s.proxy.client? id) :
    id.1 = head.serviceName ∧ ∃ c, s.proxy.client? id = some c ∧
      ∃ service ∈ services s.discovery.serviceMap head.serviceName, c.address = proxyAddress service := by
  rcases chosen : s.proxy.chosen head.serviceName with _ | ⟨i, c⟩
  · have same := (CServiceProxy.sendMsg_none codec head msg ev written chosen).2.1
    exact absurd (CServiceProxy.client?_congr same id) used
  · rw [CServiceProxy.client?_sendMsg codec head msg ev written chosen] at used
    split at used
    next same =>
      subst same
      have there := CServiceProxy.client?_chosen chosen
      refine ⟨rfl, c, there, ?_⟩
      obtain ⟨clients, listed, at_i⟩ := Option.bind_eq_some_iff.mp there
      have mem : c.address ∈ s.proxy.addresses head.serviceName := by
        rw [CServiceProxy.addresses, listed]
        exact List.mem_map_of_mem (List.mem_of_getElem? at_i)
      obtain ⟨-, service, known, same⟩ := inv.proxies _ _ mem
      exact ⟨service, (inv.taken_le _).subset known, same⟩
    · exact absurd rfl used

section Dir

open Library.Wire.Reader

/-- The directory service registers, and the gateway connects to the registry. -/
def dirRegisters : List Label :=
  [.register (.request (.registerReq "10.0.0.3"
      (Message.serialize ({ name := "dir", ip := "10.0.0.3", port := 20011 } : CRegisterReq)))),
    .register (.connect "10.0.0.2")]

/-- The registry serves the gateway's registration and its query, and the responses arrive. -/
def answers : List Label :=
  [.register .serve, .register .serve, .register .deliver, .register .deliver]

/-- The turn has the gateway itself and the directory service. -/
def twoServices : List Label := [.discover {}, .discover {}]

end Dir

/-! ## A registered service is found -/

/-- The registry and the client make a step of their own, or are as they were. -/
theorem discovery_step [Protobuf] {label : Label} (step : s.step codec label = some t) :
    t.discovery = s.discovery ∨ ∃ event, s.discovery.step event = some t.discovery ∧
      (event = .disconnect → label = .register .disconnect) := by
  rcases step_cases step with ⟨event, discovery, rfl, -, moved, rfl⟩ | ⟨discovery, moved, -, rfl⟩ |
    ⟨serviceName, service, pbMap, lib, -, rfl⟩ | ⟨proxy, -, rfl⟩
  · exact .inr ⟨event, moved, fun down => by rw [down]⟩
  · exact .inr ⟨_, moved, fun down => by cases down⟩
  · exact .inl rfl
  · exact .inl rfl

/-- While the connection is there, the lists are on their way. -/
theorem fresh_run [Protobuf] {known : String → CServiceList} {labels : List Label}
    (fresh : s.discovery.Fresh known) (stays : Label.register .disconnect ∉ labels)
    (run : (machine codec).run s labels = some t) : t.discovery.Fresh known := by
  have allowed : ∀ label ∈ labels, label ≠ Label.register .disconnect :=
    fun label mem down => stays (down ▸ mem)
  refine (machine codec).run_invariant (I := fun s => s.discovery.Fresh known) ?_ fresh
    ((machine codec).along_of_mem allowed s) run
  intro s label t fresh up step
  rcases discovery_step step with same | ⟨event, moved, down⟩
  · exact same ▸ fresh
  · exact fresh.step (fun gone => up (down gone)) moved

/-- What was taken stays taken. -/
theorem Inv.taken_step [Protobuf] (inv : s.Inv) {label : Label} (step : s.step codec label = some t)
    (name : String) : s.taken name <+: t.taken name := by
  rcases step_cases step with ⟨event, discovery, -, other, moved, rfl⟩ | ⟨discovery, moved, -, rfl⟩ |
    ⟨serviceName, service, pbMap, lib, -, rfl⟩ | ⟨proxy, -, rfl⟩
  · simp only [taken]
    rw [pbClientMap_step other moved]
  · have later := (inv.discovery.step moved).2 name
    obtain rfl := Option.some.inj moved
    exact (inv.behind name).trans later
  · exact List.prefix_refl _
  · exact List.prefix_refl _

theorem Inv.taken_run [Protobuf] (inv : s.Inv) {labels : List Label}
    (run : (machine codec).run s labels = some t)
    (name : String) : s.taken name <+: t.taken name := by
  induction labels generalizing s with
  | nil =>
    obtain rfl := Option.some.inj run
    exact List.prefix_refl _
  | cons label labels ih =>
    obtain ⟨u, step, rest⟩ := Option.bind_eq_some_iff.mp run
    exact (inv.taken_step step name).trans (ih (inv.step step) rest)

open Library.Wire.Reader

end Cluster

end MicroserviceFramework.Gateway
