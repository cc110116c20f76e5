import MicroserviceFramework.Register.Discovery

/-!
# A client that crashes

The registry and one client of it, with responses and the file of the client as bytes. The client
ends at any time, also while it writes the file, and starts again; the file may not open. Opening
the file empties it, so what the client then reads of it is an older state, nothing or a part.

As long as no part is left of it, the client never has a service that is not registered, and its
lists are the oldest part of those in the registry. What protobuf makes of a part is not known.
-/

namespace MicroserviceFramework.Register

open Library Library.Wire Platform

section

variable [Protobuf]

/-- A response on the connection: its type and its body. -/
structure Packet where
  type : CMsgType
  body : List UInt8
  deriving DecidableEq

def Response.packet : Response → Packet
  | .registerRes res => ⟨.MSG_REGISTER_RES, Message.serialize res⟩
  | .getServiceRes map => ⟨.MSG_GET_SERVICE_RES, Message.serialize map⟩

/-- What the client makes of it; that of a registration is only logged. -/
def Packet.response (p : Packet) : Response :=
  if p.type = .MSG_GET_SERVICE_RES then .getServiceRes (Message.parse p.body).2
  else .registerRes {}

/-- Within protobuf's limit. -/
def Fits (map : CServiceMap) : Prop := (Message.serialize map).length < 2 ^ 31

instance (map : CServiceMap) : Decidable (Fits map) := inferInstanceAs (Decidable (_ < _))

/-- The client, with its memory and its file on disk. -/
structure Node where
  serviceName : String := ""
  serviceIp : String := ""
  servicePort : Int32 := 0
  pbServiceMap : Option CServiceMap := none
  pbClientMap : Option CServiceMap := none
  disk : Option (List UInt8) := none

namespace Node

/-- What is read of the file. It is not asked whether all of it makes sense. -/
def stored (n : Node) : Option CServiceMap :=
  n.disk.map fun bytes => (Message.parse bytes).2

def client (n : Node) (file : Option CServiceMap) : CRegisterClient where
  serviceName := n.serviceName
  serviceIp := n.serviceIp
  servicePort := n.servicePort
  pbServiceMap := n.pbServiceMap
  pbClientMap := n.pbClientMap
  file := file

/-- A response comes. Of what goes to the file, `written` gets there. -/
def receive (p : Packet) (opened : Bool) (written : List UInt8 → List UInt8) (n : Node) : Node :=
  if p.type = .MSG_GET_SERVICE_RES then
    let c := (n.client none).getServiceRes (Message.parse p.body) opened
    { n with
      pbServiceMap := c.pbServiceMap
      disk := (c.file.map fun map => written (Message.serialize map)).or n.disk }
  else n

def loadLocalFile (opened : Bool) (n : Node) : Node :=
  { n with pbServiceMap := ((n.client n.stored).loadLocalFileIf opened).pbServiceMap }

def getAllService (opened : Bool) (n : Node) : Node :=
  let n := n.loadLocalFile opened
  { n with pbClientMap := n.pbServiceMap }

/-- The process ends and starts again. -/
def restart (n : Node) : Node := { n with pbServiceMap := none, pbClientMap := none }

end Node

/-- A connection, as the client and the registry have it. -/
structure Stream where
  clientIp : String
  requests : List Request := []
  packets : List Packet := []

structure Durable where
  serviceMap : Option CServiceMap := none
  node : Node := {}
  channel : Option Stream := none

namespace Durable

inductive Event where
  /-- A request from somebody else. -/
  | request (r : Request)
  | connect (clientIp : String)
  | disconnect
  | getServiceReq (serviceName : Option String)
  | serve
  /-- The client gets the next response; `opened` is whether the file opens. -/
  | deliver (opened : Bool)
  | loadLocalFile (opened : Bool)
  | getAllService (opened : Bool)
  | restart
  /-- The client ends while it handles the next response, with so many bytes of the file written. -/
  | crash (bytes : Nat)

/-- The packets that the registry answers the next request with. -/
def answers (s : Durable) : List Packet :=
  match s.channel with
  | some ⟨_, r :: _, _⟩ => (r.response s.serviceMap).map (·.packet)
  | _ => []

def deliver (opened : Bool) (written : List UInt8 → List UInt8) (s : Durable) : Option Durable :=
  match s.channel with
  | some ⟨clientIp, requests, p :: packets⟩ =>
    some { s with
      node := s.node.receive p opened written, channel := some ⟨clientIp, requests, packets⟩ }
  | _ => none

/-- The connection goes with the process. -/
def restart (s : Durable) : Durable := { s with node := s.node.restart, channel := none }

def step (s : Durable) : Event → Option Durable
  | .request r => some { s with serviceMap := r.handle s.serviceMap }
  | .connect clientIp =>
    match s.channel with
    | some _ => none
    | none =>
      some { s with
        channel := some
          { clientIp := clientIp
            requests := [.registerReq clientIp (s.node.client none).connetedCb] } }
  | .disconnect => some { s with channel := none }
  | .getServiceReq serviceName =>
    some { s with
      channel := s.channel.map fun channel =>
        { channel with
          requests := channel.requests ++ [.getServiceReq (CRegisterClient.getServiceReq serviceName)] } }
  | .serve =>
    match s.channel with
    | some ⟨clientIp, r :: requests, packets⟩ =>
      some { s with
        serviceMap := r.handle s.serviceMap
        channel := some
          ⟨clientIp, requests, packets ++ (r.response s.serviceMap).map (·.packet)⟩ }
    | _ => none
  | .deliver opened => s.deliver opened id
  | .loadLocalFile opened => some { s with node := s.node.loadLocalFile opened }
  | .getAllService opened => some { s with node := s.node.getAllService opened }
  | .restart => some s.restart
  | .crash bytes => (s.deliver true (·.take bytes)).map restart

def machine : Machine Durable Event := ⟨step⟩

/-- The registry is empty, and there is no file. -/
def start (serviceName serviceIp : String) (servicePort : Int32) : Durable where
  node := { serviceName := serviceName, serviceIp := serviceIp, servicePort := servicePort }

def packets (s : Durable) : List Packet := (s.channel.map (·.packets)).getD []

/-- What the client would keep of the next response. -/
def kept (s : Durable) : Option CServiceMap :=
  (s.deliver true id).bind (·.node.pbServiceMap)

/-- What is sent, and what is saved, is within protobuf's limit, and a crash leaves nothing in the
file or all of it. -/
def Whole (s : Durable) : Event → Prop
  | .serve => ∀ p ∈ s.answers, p.body.length < 2 ^ 31
  | .deliver _ => ∀ map ∈ s.kept, Fits map
  | .crash bytes => ∀ map ∈ s.kept,
    Fits map ∧ (bytes = 0 ∨ (Message.serialize map).length ≤ bytes)
  | _ => True

instance (s : Durable) : (event : Event) → Decidable (s.Whole event)
  | .serve => inferInstanceAs (Decidable (∀ p ∈ s.answers, p.body.length < 2 ^ 31))
  | .deliver _ => inferInstanceAs (Decidable (∀ map ∈ s.kept, Fits map))
  | .crash bytes => inferInstanceAs (Decidable (∀ map ∈ s.kept,
      Fits map ∧ (bytes = 0 ∨ (Message.serialize map).length ≤ bytes)))
  | .request _ | .connect _ | .disconnect | .getServiceReq _ | .loadLocalFile _ | .getAllService _
  | .restart => .isTrue trivial

/-- The lists in memory and those in the file are behind those in the registry, with the responses
under way in between. -/
structure Inv (s : Durable) : Prop where
  readable : ∀ p ∈ s.packets, p.type = .MSG_GET_SERVICE_RES →
    (Message.parse (M := CServiceMap) p.body).1 = true
  proper : ∀ p ∈ s.packets, Discovery.Proper p.response
  memory : ∀ name, Behind (· <+: ·) (services s.node.pbServiceMap name)
    (s.packets.filterMap (Discovery.about name ·.response)) (services s.serviceMap name)
  file : ∀ name, Behind (· <+: ·) (services s.node.stored name)
    (s.packets.filterMap (Discovery.about name ·.response)) (services s.serviceMap name)
  handedOut : ∀ name, services s.node.pbClientMap name <+: services s.serviceMap name

end Durable

end

/-! ## A response as bytes -/

/-- What was sent within the limit is what the client reads, up to what it only logs. -/
theorem response_packet [Protobuf] {r : Response} (fits : r.packet.body.length < 2 ^ 31)
    (proper : Discovery.Proper r) :
    (r.packet.type = .MSG_GET_SERVICE_RES →
        (Message.parse (M := CServiceMap) r.packet.body).1 = true) ∧
      Discovery.Proper r.packet.response ∧
      ∀ name, Discovery.about name r.packet.response = Discovery.about name r := by
  cases r with
  | registerRes res =>
    have other : CMsgType.MSG_REGISTER_RES ≠ .MSG_GET_SERVICE_RES := by decide
    have logged : (Response.registerRes res).packet.response = .registerRes {} := if_neg other
    rw [logged]
    exact ⟨fun same => absurd same other, trivial, fun name => rfl⟩
  | getServiceRes map =>
    have back : Message.parse (Message.serialize map) = (true, map) := Message.parse_serialize fits
    have read : (Response.getServiceRes map).packet.response = .getServiceRes map :=
      congrArg (fun parsed : Bool × CServiceMap => Response.getServiceRes parsed.2) back
    rw [read]
    exact ⟨fun _ => congrArg Prod.fst back, proper, fun name => rfl⟩

/-- A response that was read replaces the lists that it is about. -/
theorem services_getServiceRes (c : CRegisterClient) {map : CServiceMap}
    (proper : Discovery.Proper (.getServiceRes map)) (opened : Bool) (name : String) :
    services (c.getServiceRes (true, map) opened).pbServiceMap name =
      (Discovery.about name (.getServiceRes map)).getD (services c.pbServiceMap name) := by
  rw [services, CRegisterClient.registered_getServiceRes c proper, taken, Discovery.about]
  split
  · rfl
  · exact Option.getD_or

/-- Where the file is written, it is written as what is then in memory. -/
theorem file_getServiceRes {c : CRegisterClient} (unwritten : c.file = none) (map : CServiceMap)
    (opened : Bool) : (c.getServiceRes (true, map) opened).file = none ∨
      ∃ map', (c.getServiceRes (true, map) opened).file = some map' ∧
        (c.getServiceRes (true, map) opened).pbServiceMap = some map' := by
  rcases c.getServiceRes_cases map opened with same | ⟨map', saved⟩
  · exact .inl (by rw [same, unwritten])
  · rw [saved, CRegisterClient.save]
    cases opened with
    | false => exact .inl unwritten
    | true => exact .inr ⟨map', rfl, rfl⟩

/-- What is in memory does not depend on the file. -/
theorem pbServiceMap_getServiceRes (c : CRegisterClient) (parsed : Bool × CServiceMap)
    (opened : Bool) : (c.getServiceRes parsed opened).pbServiceMap =
      (c.getServiceRes parsed true).pbServiceMap := by
  unfold CRegisterClient.getServiceRes
  grind [CRegisterClient.save_pbServiceMap]

/-! ## The client's steps -/

variable {s t : Durable}

namespace Node

/-- What a response leaves in memory and on disk. -/
theorem receive_sound [Protobuf] {n : Node} {p : Packet}
    (readable : p.type = .MSG_GET_SERVICE_RES → (Message.parse (M := CServiceMap) p.body).1 = true)
    (proper : Discovery.Proper p.response) (opened : Bool) {written : List UInt8 → List UInt8}
    (fits : ∀ map ∈ (n.receive p opened written).pbServiceMap, Fits map ∧
      (written (Message.serialize map) = [] ∨
        written (Message.serialize map) = Message.serialize map)) :
    (n.receive p opened written).pbClientMap = n.pbClientMap ∧
    (∀ name, services (n.receive p opened written).pbServiceMap name =
      (Discovery.about name p.response).getD (services n.pbServiceMap name)) ∧
    ((n.receive p opened written).stored = n.stored ∨
      ∀ name, services (n.receive p opened written).stored name <+:
        services (n.receive p opened written).pbServiceMap name) := by
  by_cases other : p.type = .MSG_GET_SERVICE_RES
  · rw [receive, if_pos other] at fits ⊢
    rw [Packet.response, if_pos other] at proper ⊢
    have parsed := readable other
    generalize (Message.parse p.body : Bool × CServiceMap) = response at parsed fits proper ⊢
    obtain ⟨ok, map⟩ := response
    obtain rfl : ok = true := parsed
    refine ⟨rfl, services_getServiceRes (n.client none) proper opened, ?_⟩
    have empty : (n.client none).file = none := rfl
    rcases file_getServiceRes empty map opened with unwritten | ⟨map', saved, memory⟩
    · left
      dsimp only [stored]
      rw [unwritten]
      rfl
    · right
      intro name
      dsimp only [stored] at fits ⊢
      rw [memory] at fits ⊢
      rw [saved, Option.map_some, Option.some_or, Option.map_some]
      obtain ⟨small, empty | whole⟩ := fits map' rfl
      · have nothing : (Message.parse [] : Bool × CServiceMap) = (true, {}) := Message.parse_nil rfl
        rw [empty, nothing]
        exact List.nil_prefix
      · rw [whole, Message.parse_serialize small]
  · rw [receive, if_neg other]
    rw [Packet.response, if_neg other]
    exact ⟨rfl, fun name => rfl, .inl rfl⟩

theorem receive_pbServiceMap [Protobuf] (n : Node) (p : Packet) (opened : Bool)
    (written : List UInt8 → List UInt8) :
    (n.receive p opened written).pbServiceMap = (n.receive p true id).pbServiceMap := by
  unfold receive
  split
  · exact pbServiceMap_getServiceRes _ _ opened
  · rfl

/-- A load leaves what is in memory, or takes what is in the file. -/
theorem services_loadLocalFile [Protobuf] (n : Node) (opened : Bool) :
    services (n.loadLocalFile opened).pbServiceMap = services n.pbServiceMap ∨
      services (n.loadLocalFile opened).pbServiceMap = services n.stored := by
  rw [loadLocalFile]
  dsimp only
  cases opened with
  | false => exact .inl rfl
  | true =>
    rw [CRegisterClient.loadLocalFileIf, if_pos rfl, CRegisterClient.loadLocalFile]
    rcases stored : n.stored with _ | map
    · exact .inl rfl
    · exact .inr rfl

end Node

namespace Durable

/-! ## The invariant -/

section

variable [Protobuf]

theorem inv_start (serviceName serviceIp : String) (servicePort : Int32) :
    (start serviceName serviceIp servicePort).Inv where
  readable _ mem := by cases mem
  proper _ mem := by cases mem
  memory _ := .start List.nil_prefix
  file _ := .start List.nil_prefix
  handedOut _ := List.nil_prefix

/-- The registry has more, and the same responses are under way. -/
theorem Inv.grow (inv : s.Inv) (packets : t.packets = s.packets) (node : t.node = s.node)
    (more : ∀ name, services s.serviceMap name <+: services t.serviceMap name) : t.Inv where
  readable := packets ▸ inv.readable
  proper := packets ▸ inv.proper
  memory name := by
    rw [packets, node]
    exact (inv.memory name).grow (more name)
  file name := by
    rw [packets, node]
    exact (inv.file name).grow (more name)
  handedOut name := by
    rw [node]
    exact (inv.handedOut name).trans (more name)

/-- What was under way is lost. -/
theorem Inv.lose (inv : s.Inv) (empty : t.packets = []) (node : t.node = s.node)
    (same : t.serviceMap = s.serviceMap) : t.Inv where
  readable p mem := by
    rw [empty] at mem
    cases mem
  proper p mem := by
    rw [empty] at mem
    cases mem
  memory name := by
    rw [empty, node, same]
    exact (inv.memory name).lose
  file name := by
    rw [empty, node, same]
    exact (inv.file name).lose
  handedOut name := by
    rw [node, same]
    exact inv.handedOut name

/-- The file is all that is left. -/
theorem Inv.restart (inv : s.Inv) : s.restart.Inv where
  readable _ mem := by cases mem
  proper _ mem := by cases mem
  memory _ := .start List.nil_prefix
  file name := (inv.file name).lose
  handedOut _ := List.nil_prefix

/-- The registry answers a request, and the answer goes last. -/
theorem Inv.serve (inv : s.Inv) {clientIp : String} {r : Request} {requests : List Request}
    {packets : List Packet} (channel : s.channel = some ⟨clientIp, r :: requests, packets⟩)
    (fits : s.Whole .serve) :
    Inv { s with
      serviceMap := r.handle s.serviceMap
      channel := some ⟨clientIp, requests, packets ++ (r.response s.serviceMap).map (·.packet)⟩ } := by
  obtain ⟨response, sent, good, sound⟩ := Discovery.response_sound s.serviceMap r
  have small : response.packet.body.length < 2 ^ 31 := by
    apply fits
    rw [answers, channel]
    dsimp only
    rw [sent]
    exact List.mem_singleton_self _
  obtain ⟨reads, good', about⟩ := response_packet small good
  have before : s.packets = packets := by rw [Durable.packets, channel]; rfl
  have after : Durable.packets { s with
      serviceMap := r.handle s.serviceMap
      channel := some ⟨clientIp, requests, packets ++ (r.response s.serviceMap).map (·.packet)⟩ } =
      packets ++ [response.packet] := by
    rw [sent]
    rfl
  have more (name : String) := Discovery.services_handle s.serviceMap r name
  have last {copy : String → CServiceList} (behind : ∀ name, Behind (· <+: ·) (copy name)
      (packets.filterMap (Discovery.about name ·.response)) (services s.serviceMap name))
      (name : String) : Behind (· <+: ·) (copy name)
        ((packets ++ [response.packet]).filterMap (Discovery.about name ·.response))
        (services (r.handle s.serviceMap) name) := by
    have grown := (behind name).grow (more name)
    rw [List.filterMap_append, List.filterMap_cons, List.filterMap_nil, about]
    rcases known : Discovery.about name response with _ | list
    · rw [List.append_nil]
      exact grown
    · obtain rfl := sound name list known
      exact grown.send
  obtain ⟨readable, proper, memory, file, handedOut⟩ := inv
  rw [before] at readable proper memory file
  refine ⟨?_, ?_, ?_, ?_, fun name => (handedOut name).trans (more name)⟩ <;> rw [after]
  · intro p mem
    rcases List.mem_append.mp mem with old | new
    · exact readable p old
    · obtain rfl := List.mem_singleton.mp new
      exact reads
  · intro p mem
    rcases List.mem_append.mp mem with old | new
    · exact proper p old
    · obtain rfl := List.mem_singleton.mp new
      exact good'
  · exact last memory
  · exact last file

/-- The client takes a response over, and writes all or a part of its file. -/
theorem Inv.deliver (inv : s.Inv) {opened : Bool} {written : List UInt8 → List UInt8}
    (fits : ∀ map ∈ s.kept, Fits map ∧ (written (Message.serialize map) = [] ∨
      written (Message.serialize map) = Message.serialize map))
    (step : s.deliver opened written = some t) : t.Inv := by
  unfold Durable.deliver at step
  split at step
  next clientIp requests p packets channel =>
    obtain rfl := Option.some.inj step
    have before : s.packets = p :: packets := by rw [Durable.packets, channel]; rfl
    obtain ⟨readable, proper, memory, file, handedOut⟩ := inv
    rw [before] at readable proper memory file
    have within : ∀ map ∈ (s.node.receive p opened written).pbServiceMap, Fits map ∧
        (written (Message.serialize map) = [] ∨
          written (Message.serialize map) = Message.serialize map) := by
      intro map mem
      apply fits
      rw [kept, Durable.deliver, channel]
      rwa [Node.receive_pbServiceMap] at mem
    obtain ⟨same, lists, stored⟩ := Node.receive_sound (readable p List.mem_cons_self)
      (proper p List.mem_cons_self) opened within
    have memory' (name : String) :
        Behind (· <+: ·) (services (s.node.receive p opened written).pbServiceMap name)
          (packets.filterMap (Discovery.about name ·.response)) (services s.serviceMap name) := by
      have here := memory name
      rw [List.filterMap_cons] at here
      rw [lists name]
      rcases known : Discovery.about name p.response with _ | list
      · rw [known] at here
        exact here
      · rw [known] at here
        exact here.deliver.2
    refine ⟨fun q mem => readable q (List.mem_cons_of_mem _ mem),
      fun q mem => proper q (List.mem_cons_of_mem _ mem), memory', fun name => ?_, fun name => ?_⟩
    · rcases stored with unwritten | part_of
      · -- the file has what it had, and the response is no concern of it
        have here := file name
        rw [List.filterMap_cons] at here
        dsimp only
        rw [unwritten]
        rcases known : Discovery.about name p.response with _ | list
        · rw [known] at here
          exact here
        · rw [known] at here
          exact here.skip
      · exact (memory' name).back (part_of name)
    · dsimp only
      rw [same]
      exact handedOut name
  · cases step

/-- The file is read, or it stays closed. -/
theorem Inv.loadLocalFile (inv : s.Inv) (opened : Bool) :
    Inv { s with node := s.node.loadLocalFile opened } ∧
      ∀ name, services (s.node.loadLocalFile opened).pbServiceMap name <+:
        services s.serviceMap name := by
  have memory (name : String) :
      Behind (· <+: ·) (services (s.node.loadLocalFile opened).pbServiceMap name)
        (s.packets.filterMap (Discovery.about name ·.response)) (services s.serviceMap name) := by
    rcases s.node.services_loadLocalFile opened with same | same <;> rw [same]
    · exact inv.memory name
    · exact inv.file name
  exact ⟨⟨inv.readable, inv.proper, memory, inv.file, inv.handedOut⟩,
    fun name => (memory name).copy_le⟩

theorem Inv.step (inv : s.Inv) {event : Event} (whole : s.Whole event)
    (step : s.step event = some t) : t.Inv := by
  cases event with
  | request r =>
    obtain rfl := Option.some.inj step
    exact inv.grow rfl rfl (Discovery.services_handle s.serviceMap r)
  | connect clientIp =>
    simp only [Durable.step] at step
    split at step
    · cases step
    · obtain rfl := Option.some.inj step
      exact inv.lose rfl rfl rfl
  | disconnect =>
    obtain rfl := Option.some.inj step
    exact inv.lose rfl rfl rfl
  | getServiceReq serviceName =>
    obtain rfl := Option.some.inj step
    refine inv.grow ?_ rfl fun name => List.prefix_refl _
    rcases channel : s.channel with _ | ⟨clientIp, requests, packets⟩ <;>
      simp [Durable.packets, channel]
  | serve =>
    simp only [Durable.step] at step
    split at step
    next channel =>
      obtain rfl := Option.some.inj step
      exact inv.serve channel whole
    · cases step
  | deliver opened =>
    exact inv.deliver (fun map mem => ⟨whole map mem, .inr rfl⟩) step
  | loadLocalFile opened =>
    obtain rfl := Option.some.inj step
    exact (inv.loadLocalFile opened).1
  | getAllService opened =>
    obtain rfl := Option.some.inj step
    obtain ⟨loaded, handedOut⟩ := inv.loadLocalFile opened
    exact ⟨loaded.readable, loaded.proper, loaded.memory, loaded.file, handedOut⟩
  | restart =>
    obtain rfl := Option.some.inj step
    exact inv.restart
  | crash bytes =>
    obtain ⟨u, delivered, rfl⟩ := Option.map_eq_some_iff.mp step
    refine (inv.deliver (fun map mem => ⟨(whole map mem).1, ?_⟩) delivered).restart
    rcases (whole map mem).2 with rfl | all
    · exact .inl rfl
    · exact .inr (List.take_of_length_le all)

theorem machine_preserves_inv : machine.Preserves Whole Inv :=
  fun _ _ _ inv whole step => inv.step whole step

end

open Library.Wire.Reader

/-- A client comes, asks for all services and ends while it handles the answer, with so many bytes
of its file written. -/
def visit (bytes : Nat) : List Event :=
  [.connect "10.0.0.2", .serve, .deliver true, .getServiceReq none, .serve, .crash bytes,
    .loadLocalFile true]

/-- The directory service registers, and then the client, which ends when it has just opened its
file, and the second time when it has written it. -/
def twoCrashes : List Event :=
  .request (.registerReq "10.0.0.3" dirRegisters) :: (visit 0 ++ visit 1000)

end Durable

end MicroserviceFramework.Register
