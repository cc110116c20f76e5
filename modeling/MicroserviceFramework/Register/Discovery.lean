import MicroserviceFramework.Library.Machine
import MicroserviceFramework.Library.Snapshots
import MicroserviceFramework.Register.Responses
import Mathlib.Data.List.Infix

/-!
# Discovery

The registry, its other clients, and one client with its connection. The connection keeps the
order of requests and of responses, and what is under way is lost with it. The other clients are
only the requests that they make; so is what the registry still receives of a broken connection.

For each name, what is in the client's cache, in the responses under way and in the registry is a
chain of prefixes.
-/

namespace MicroserviceFramework.Register

open Library Library.Wire Platform

inductive Response where
  | registerRes (res : CMessageRes)
  | getServiceRes (map : CServiceMap)
  deriving DecidableEq

/-- What the registry answers. -/
def Request.response [Protobuf] (serviceMap : Option CServiceMap) : Request → List Response
  | registerReq clientIp msg =>
    ((CRegisterHandle.registerReq clientIp msg serviceMap).2.map fun r =>
      Response.registerRes r.2).toList
  | getServiceReq msg =>
    ((CRegisterHandle.getServiceReq msg serviceMap).2.map fun r =>
      Response.getServiceRes r.2).toList

/-- A connection of the client, and the address under which the registry knows it. -/
structure Channel where
  clientIp : String
  requests : List Request := []
  responses : List Response := []
  deriving DecidableEq

structure Discovery where
  serviceMap : Option CServiceMap := none
  client : CRegisterClient := {}
  channel : Option Channel := none

inductive Event where
  /-- A request from somebody else. -/
  | request (r : Request)
  /-- The client connects, and registers itself. -/
  | connect (clientIp : String)
  | disconnect
  | getServiceReq (serviceName : Option String)
  /-- The registry handles the next request of the client. -/
  | serve
  /-- The client gets the next response. -/
  | deliver
  | loadLocalFile
  | getAllService
  deriving DecidableEq, Repr

namespace Discovery

/-- The client's handlers; that of registrations only logs. -/
def receive (c : CRegisterClient) : Response → CRegisterClient
  | .registerRes _ => c
  | .getServiceRes map => c.getServiceRes (true, map) true

def step [Protobuf] (s : Discovery) : Event → Option Discovery
  | .request r => some { s with serviceMap := r.handle s.serviceMap }
  | .connect clientIp =>
    match s.channel with
    | some _ => none
    | none =>
      some { s with
        channel := some
          { clientIp := clientIp, requests := [.registerReq clientIp s.client.connetedCb] } }
  | .disconnect => some { s with channel := none }
  | .getServiceReq serviceName =>
    -- without a connection nothing is sent
    some { s with
      channel := s.channel.map fun channel =>
        { channel with
          requests := channel.requests ++ [.getServiceReq (CRegisterClient.getServiceReq serviceName)] } }
  | .serve =>
    match s.channel with
    | some { clientIp, requests := r :: rs, responses } =>
      some { s with
        serviceMap := r.handle s.serviceMap
        channel := some ⟨clientIp, rs, responses ++ r.response s.serviceMap⟩ }
    | _ => none
  | .deliver =>
    match s.channel with
    | some { clientIp, requests, responses := r :: rs } =>
      some { s with client := receive s.client r, channel := some ⟨clientIp, requests, rs⟩ }
    | _ => none
  | .loadLocalFile => some { s with client := s.client.loadLocalFile }
  | .getAllService => some { s with client := s.client.getAllService }

def machine [Protobuf] : Machine Discovery Event := ⟨step⟩

/-- The registry is empty, and so are the caches of the client. -/
def start (serviceName serviceIp : String) (servicePort : Int32) : Discovery where
  client := { serviceName := serviceName, serviceIp := serviceIp, servicePort := servicePort }

/-- The services of a name in the cache. -/
def cached (s : Discovery) (name : String) : CServiceList := services s.client.pbServiceMap name

/-! ## The registry grows -/

theorem prefix_of_eq {list list' : CServiceList} (same : list = list') : list <+: list' :=
  same ▸ List.prefix_refl list

theorem services_congr {m m' : Option CServiceMap} (same : registered m' = registered m)
    (name : String) : services m' name = services m name := by
  rw [services, services, same]

theorem services_added {m m' : Option CServiceMap} {service : CService}
    (lists : registered m' = added m service) (name : String) :
    services m name <+: services m' name := by
  by_cases same : name = service.name
  · rw [services.eq_1 m', lists, added, same, Function.update_self]
    exact List.prefix_append _ _
  · rw [services.eq_1 m', lists, added, Function.update_of_ne same]
    exact List.prefix_refl _

theorem services_handle [Protobuf] (m : Option CServiceMap) (request : Request) (name : String) :
    services m name <+: services (request.handle m) name := by
  cases request with
  | registerReq clientIp msg =>
    rcases CRegisterHandle.registerReq_cases clientIp msg m with
      ⟨text, -, same⟩ | ⟨req, -, -, -, lists⟩
    · exact prefix_of_eq (services_congr same name).symm
    · exact services_added lists name
  | getServiceReq msg =>
    have same := CRegisterHandle.getServiceReq_registered msg m
    exact prefix_of_eq (services_congr same name).symm

/-! ## What a response says of a name -/

def about (name : String) : Response → Option CServiceList
  | .registerRes _ => none
  | .getServiceRes map =>
    if map.type = .ALL then some (services (some map) name) else registered (some map) name

/-- A response has all services, or those of at most one name. -/
def Proper : Response → Prop
  | .registerRes _ => True
  | .getServiceRes map => map.type = .ALL ∨ map.serviceMap.entries.length ≤ 1

/-- The answer to a query is about the lists as they are. -/
theorem getServiceReq_sound [Protobuf] (m : Option CServiceMap) (msg : List UInt8) :
    ∃ answer, (CRegisterHandle.getServiceReq msg m).2 =
        some (sendMsg CMsgType.MSG_GET_SERVICE_RES answer) ∧ Proper (.getServiceRes answer) ∧
      ∀ name list, about name (.getServiceRes answer) = some list → list = services m name := by
  unfold CRegisterHandle.getServiceReq
  split
  · refine ⟨_, rfl, .inr (Nat.zero_le 1), fun name list known => ?_⟩
    rw [about, if_neg (by decide)] at known
    cases known
  next req parsed =>
    dsimp only
    by_cases all : req.type = .ALL
    · rw [if_pos all]
      refine ⟨_, rfl, .inl all, fun name list known => ?_⟩
      rw [about, CRegisterHandle.answered, if_pos all] at known
      exact (Option.some.inj known).symm
    · rw [if_neg all]
      rcases list : (m.getD {}).serviceMap.lookup req.name with _ | services
      · refine ⟨_, rfl, .inr (Nat.zero_le 1), fun name list known => ?_⟩
        simp [about, registered, CRegisterHandle.answered, all] at known
      · refine ⟨_, rfl, .inr (Nat.le_refl 1), fun name list known => ?_⟩
        rw [about, CRegisterHandle.answered, if_neg all, registered, Option.getD_some] at known
        dsimp only at known
        rw [CRegisterHandle.lookup_insert_empty] at known
        grind [Register.services, registered]

theorem response_sound [Protobuf] (m : Option CServiceMap) (request : Request) :
    ∃ response, request.response m = [response] ∧ Proper response ∧
      ∀ name list, about name response = some list → list = services (request.handle m) name := by
  cases request with
  | registerReq clientIp msg =>
    rcases CRegisterHandle.registerReq_cases clientIp msg m with
      ⟨text, reply, -⟩ | ⟨req, -, -, reply, -⟩
    · exact ⟨.registerRes _, by rw [Request.response, reply]; rfl, trivial, by simp [about]⟩
    · exact ⟨.registerRes _, by rw [Request.response, reply]; rfl, trivial, by simp [about]⟩
  | getServiceReq msg =>
    obtain ⟨answer, reply, proper, sound⟩ := getServiceReq_sound m msg
    refine ⟨.getServiceRes answer, by rw [Request.response, reply]; rfl, proper, ?_⟩
    intro name list known
    have same := CRegisterHandle.getServiceReq_registered msg m
    exact (sound name list known).trans (services_congr same name).symm

/-! ## What the client makes of it -/

/-- The file has what is in the cache; before the first response there is neither. -/
def Saved (c : CRegisterClient) : Prop :=
  match c.file with
  | none => ∀ name, services c.pbServiceMap name = []
  | some map => c.pbServiceMap = some map

theorem services_loadLocalFile {c : CRegisterClient} (saved : Saved c) (name : String) :
    services c.loadLocalFile.pbServiceMap name = services c.pbServiceMap name := by
  unfold Saved at saved
  rcases file : c.file with _ | map
  · rw [CRegisterClient.loadLocalFile, file]
    rfl
  · rw [file] at saved
    rw [CRegisterClient.loadLocalFile, file, saved]

theorem saved_loadLocalFile {c : CRegisterClient} (saved : Saved c) : Saved c.loadLocalFile := by
  have same := services_loadLocalFile saved
  unfold Saved at saved ⊢
  rcases file : c.file with _ | map
  · rw [file] at saved
    have kept : c.loadLocalFile.file = none := by rw [CRegisterClient.loadLocalFile, file]
    rw [kept]
    intro name
    rw [same, saved]
  · have kept : c.loadLocalFile.file = some map := by rw [CRegisterClient.loadLocalFile, file]
    rw [kept, CRegisterClient.loadLocalFile, file]

theorem saved_save (c : CRegisterClient) {map : CServiceMap} (cache : c.pbServiceMap = some map) :
    Saved (c.save true) := by
  rw [Saved, CRegisterClient.save, if_pos rfl, cache]

theorem saved_getServiceRes {c : CRegisterClient} (saved : Saved c) (map : CServiceMap) :
    Saved (c.getServiceRes (true, map) true) := by
  rcases c.getServiceRes_cases map true with same | ⟨map', written⟩
  · rwa [same]
  · rw [written]
    exact saved_save _ rfl

/-- A response is taken over for the names that it is about, and saved. -/
theorem receive_sound {c : CRegisterClient} {response : Response} (saved : Saved c)
    (proper : Proper response) : Saved (receive c response) ∧
      ∀ name, services (receive c response).pbServiceMap name =
        (about name response).getD (services c.pbServiceMap name) := by
  cases response with
  | registerRes res => exact ⟨saved, fun name => rfl⟩
  | getServiceRes map =>
    refine ⟨saved_getServiceRes saved map, fun name => ?_⟩
    rw [receive, services, CRegisterClient.registered_getServiceRes c proper, taken, about]
    split
    · rfl
    · exact Option.getD_or

/-! ## The invariant -/

def inFlight (s : Discovery) : List Response := (s.channel.map (·.responses)).getD []

structure Inv (s : Discovery) : Prop where
  behind : ∀ name, Behind (· <+: ·) (s.cached name) (s.inFlight.filterMap (about name))
    (services s.serviceMap name)
  proper : ∀ response ∈ s.inFlight, Proper response
  saved : Saved s.client

theorem inv_start (serviceName serviceIp : String) (servicePort : Int32) :
    (start serviceName serviceIp servicePort).Inv where
  behind _ := .start List.nil_prefix
  proper _ mem := by cases mem
  saved _ := rfl

/-- What is in flight is lost, or nothing was. -/
theorem Inv.lose {s s' : Discovery} (inv : s.Inv) (client : s'.client = s.client)
    (serviceMap : s'.serviceMap = s.serviceMap) (empty : s'.inFlight = []) : s'.Inv where
  behind name := by
    rw [cached, empty, client, serviceMap]
    exact (inv.behind name).lose
  proper _ mem := by
    rw [empty] at mem
    cases mem
  saved := client ▸ inv.saved

/-- The cache has what it had, and nothing is sent or delivered. -/
theorem Inv.reload {s s' : Discovery} (inv : s.Inv) (inFlight : s'.inFlight = s.inFlight)
    (serviceMap : s'.serviceMap = s.serviceMap) (cached : s'.cached = s.cached)
    (saved : Saved s'.client) : s'.Inv where
  behind name := by
    rw [cached, inFlight, serviceMap]
    exact inv.behind name
  proper := inFlight ▸ inv.proper
  saved := saved

/-- The file has what the cache has, whatever is handed out of it. -/
theorem Inv.loadLocalFile {s : Discovery} (inv : s.Inv) (handedOut : Option CServiceMap) :
    Inv { s with client := { s.client.loadLocalFile with pbClientMap := handedOut } } ∧
      ∀ name, s.cached name <+: services s.client.loadLocalFile.pbServiceMap name := by
  have same := services_loadLocalFile inv.saved
  exact ⟨inv.reload rfl rfl (funext same) (saved_loadLocalFile inv.saved),
    fun name => prefix_of_eq (same name).symm⟩

/-- The registry answers a request, and the answer goes last. -/
theorem Inv.serve [Protobuf] {s : Discovery} {clientIp : String} {r : Request}
    {requests : List Request} {responses : List Response} (inv : s.Inv)
    (channel : s.channel = some ⟨clientIp, r :: requests, responses⟩) :
    Inv { s with
      serviceMap := r.handle s.serviceMap
      channel := some ⟨clientIp, requests, responses ++ r.response s.serviceMap⟩ } := by
  obtain ⟨behind, proper, saved⟩ := inv
  obtain ⟨response, sent, good, sound⟩ := response_sound s.serviceMap r
  rw [inFlight, channel] at proper
  refine ⟨fun name => ?_, fun other mem => ?_, saved⟩
  · have grown := (behind name).grow (services_handle s.serviceMap r name)
    rw [inFlight, channel, Option.map_some, Option.getD_some] at grown
    rw [sent, inFlight, Option.map_some, Option.getD_some, List.filterMap_append]
    rcases known : about name response with _ | list
    · rw [List.filterMap_cons, known, List.filterMap_nil, List.append_nil]
      exact grown
    · obtain rfl := sound name list known
      rw [List.filterMap_cons, known, List.filterMap_nil]
      exact grown.send
  · rw [sent] at mem
    rcases List.mem_append.mp mem with old | new
    · exact proper other old
    · obtain rfl := List.mem_singleton.mp new
      exact good

/-- The client takes over the response that was sent first. -/
theorem Inv.deliver {s : Discovery} {clientIp : String} {requests : List Request} {r : Response}
    {responses : List Response} (inv : s.Inv)
    (channel : s.channel = some ⟨clientIp, requests, r :: responses⟩) :
    Inv { s with
      client := receive s.client r, channel := some ⟨clientIp, requests, responses⟩ } ∧
      ∀ name, s.cached name <+: services (receive s.client r).pbServiceMap name := by
  obtain ⟨behind, proper, saved⟩ := inv
  rw [inFlight, channel] at proper
  obtain ⟨saved', taken⟩ := receive_sound saved (proper r List.mem_cons_self)
  have next : ∀ name, s.cached name <+: services (receive s.client r).pbServiceMap name ∧
      Behind (· <+: ·) (services (receive s.client r).pbServiceMap name)
        (responses.filterMap (about name)) (services s.serviceMap name) := by
    intro name
    have here := behind name
    rw [inFlight, channel, Option.map_some, Option.getD_some, List.filterMap_cons] at here
    rw [taken name]
    rcases known : about name r with _ | list
    · rw [known] at here
      exact ⟨List.prefix_refl _, here⟩
    · rw [known] at here
      exact here.deliver
  exact ⟨⟨fun name => (next name).2, fun other mem => proper other (List.mem_cons_of_mem _ mem),
    saved'⟩, fun name => (next name).1⟩

theorem Inv.step [Protobuf] {s s' : Discovery} {event : Event} (inv : s.Inv)
    (step : s.step event = some s') : s'.Inv ∧ ∀ name, s.cached name <+: s'.cached name := by
  cases event with
  | request r =>
    obtain rfl := Option.some.inj step
    exact ⟨⟨fun name => (inv.behind name).grow (services_handle s.serviceMap r name), inv.proper,
      inv.saved⟩, fun name => List.prefix_refl _⟩
  | connect clientIp =>
    simp only [Discovery.step] at step
    split at step
    · cases step
    · obtain rfl := Option.some.inj step
      exact ⟨inv.lose rfl rfl rfl, fun name => List.prefix_refl _⟩
  | disconnect =>
    obtain rfl := Option.some.inj step
    exact ⟨inv.lose rfl rfl rfl, fun name => List.prefix_refl _⟩
  | getServiceReq serviceName =>
    obtain rfl := Option.some.inj step
    have same : (s.channel.map fun channel => { channel with
        requests := channel.requests ++
          [Request.getServiceReq (CRegisterClient.getServiceReq serviceName)] }).map
        (·.responses) =
        s.channel.map (·.responses) := by cases s.channel <;> rfl
    exact ⟨inv.reload (congrArg (·.getD []) same) rfl rfl inv.saved, fun name => List.prefix_refl _⟩
  | serve =>
    simp only [Discovery.step] at step
    split at step
    next clientIp r requests responses channel =>
      obtain rfl := Option.some.inj step
      exact ⟨inv.serve channel, fun name => List.prefix_refl _⟩
    · cases step
  | deliver =>
    simp only [Discovery.step] at step
    split at step
    next clientIp requests r responses channel =>
      obtain rfl := Option.some.inj step
      exact inv.deliver channel
    · cases step
  | loadLocalFile =>
    obtain rfl := Option.some.inj step
    exact inv.loadLocalFile _
  | getAllService =>
    obtain rfl := Option.some.inj step
    exact inv.loadLocalFile _

/-- In every run, the cache has a prefix of each list of the registry, and no step makes it
shorter. -/
theorem discovery_agrees [Protobuf] (serviceName serviceIp : String) (servicePort : Int32)
    {events : List Event} {s : Discovery}
    (run : machine.run (start serviceName serviceIp servicePort) events = some s) :
    (∀ name, s.cached name <+: services s.serviceMap name) ∧
      ∀ event s', machine.step s event = some s' → ∀ name, s.cached name <+: s'.cached name := by
  have inv : s.Inv := machine.run_invariant_always
    (fun s event s' inv _ step => (inv.step step).1) (inv_start serviceName serviceIp servicePort)
    run
  exact ⟨fun name => (inv.behind name).copy_le, fun event s' step => (inv.step step).2⟩

open Library.Wire.Reader

/-- The client registers itself and asks for all services; the connection breaks, and the list is
read from the file. -/
def ownService : List Event :=
  [.connect "10.0.0.2", .serve, .deliver, .getServiceReq none, .serve, .deliver, .disconnect,
    .getAllService]

theorem discovery_agrees_own_service :
    ∃ s, machine.run (start "GW" "" 20010) ownService = some s ∧
      s.cached "GW" = [⟨"GW", "10.0.0.2", 20010⟩] ∧
      (∀ name, s.cached name <+: services s.serviceMap name) ∧
      ∀ event s', machine.step s event = some s' → ∀ name, s.cached name <+: s'.cached name := by
  have cached : ((machine.run (start "GW" "" 20010) ownService).map (·.cached "GW")) =
      some [⟨"GW", "10.0.0.2", 20010⟩] := by decide +kernel
  obtain ⟨s, run, list⟩ := Option.map_eq_some_iff.mp cached
  exact ⟨s, run, list, discovery_agrees "GW" "" 20010 run⟩

end Discovery

end MicroserviceFramework.Register
