import MicroserviceFramework.Register.Discovery

/-!
# What a query brings

A query for all services goes to the registry and its answer comes back, with other requests and
responses before them. Once nothing is under way, the cache has every service that was registered
when the query was made, whoever made other queries or registrations in the meantime.
-/

namespace MicroserviceFramework.Register

open Library Library.Wire Platform

/-- The query that is sent without a name. -/
def allServices : Request := .getServiceReq (CRegisterClient.getServiceReq none)

namespace Discovery

variable {known : String → CServiceList} {s s' : Discovery}

/-- The answer to it has the list of every name. -/
theorem response_allServices [Protobuf] (m : Option CServiceMap) :
    ∃ response, allServices.response m = [response] ∧
      ∀ name, about name response = some (services (allServices.handle m) name) := by
  obtain ⟨response, sent, -, sound⟩ := response_sound m allServices
  refine ⟨response, sent, fun name => ?_⟩
  have parsed : (Message.parse (CRegisterClient.getServiceReq none) : Bool × CGetServiceReq) =
      (true, { type := .ALL }) := Message.parse_serialize (by decide +kernel)
  obtain ⟨answer, reply, type, -⟩ := CRegisterHandle.getServiceReq_parsed _ m parsed
  have same : response = .getServiceRes answer := by
    rw [allServices, Request.response, reply] at sent
    exact (List.singleton_inj.mp sent).symm
  subst same
  have whole : about name (.getServiceRes answer) = some (services (some answer) name) := by
    rw [about, if_pos type]
  rw [whole, sound name _ whole]

/-- The lists are in the cache, or in a response, or a query for them is still to be served. -/
inductive Awaited (known : String → CServiceList) (s : Discovery) : Prop where
  | taken (cached : ∀ name, known name <+: s.cached name)
  | answered (clientIp : String) (requests : List Request) (responses : List Response)
      (channel : s.channel = some ⟨clientIp, requests, responses⟩) (response : Response)
      (underWay : response ∈ responses)
      (about : ∀ name, ∃ list, about name response = some list ∧ known name <+: list)
  | asked (clientIp : String) (requests : List Request) (responses : List Response)
      (channel : s.channel = some ⟨clientIp, requests, responses⟩)
      (underWay : allServices ∈ requests)

/-- The registry has the lists, and the client will have them. -/
structure Fresh (known : String → CServiceList) (s : Discovery) : Prop where
  inv : s.Inv
  registered : ∀ name, known name <+: services s.serviceMap name
  awaited : s.Awaited known

/-- The lists of the registry when a query for all services is made. -/
theorem Fresh.start [Protobuf] (inv : s.Inv) (connected : s.channel.isSome)
    (step : s.step (.getServiceReq none) = some s') : s'.Fresh (services s.serviceMap) := by
  obtain ⟨⟨clientIp, requests, responses⟩, channel⟩ := Option.isSome_iff_exists.mp connected
  have inv' := (inv.step step).1
  obtain rfl := Option.some.inj step
  refine ⟨inv', fun name => List.prefix_refl _, .asked clientIp (requests ++ [allServices]) responses
    ?_ (List.mem_append_right _ List.mem_cons_self)⟩
  rw [channel]
  rfl

/-- The cache and the requests under way may grow. -/
theorem Awaited.carry (awaited : s.Awaited known) (later : ∀ name, s.cached name <+: s'.cached name)
    (kept : ∀ clientIp requests responses, s.channel = some ⟨clientIp, requests, responses⟩ →
      ∃ more, s'.channel = some ⟨clientIp, requests ++ more, responses⟩) : s'.Awaited known := by
  rcases awaited with cached | ⟨clientIp, requests, responses, channel, response, underWay, about⟩ |
    ⟨clientIp, requests, responses, channel, underWay⟩
  · exact .taken fun name => (cached name).trans (later name)
  · obtain ⟨more, channel'⟩ := kept _ _ _ channel
    exact .answered clientIp _ responses channel' response underWay about
  · obtain ⟨more, channel'⟩ := kept _ _ _ channel
    exact .asked clientIp _ responses channel' (List.mem_append_left _ underWay)

/-- The registry serves the query itself, or a request before it. -/
theorem Awaited.serve [Protobuf] {clientIp : String} {r : Request} {requests : List Request}
    {responses : List Response} (awaited : s.Awaited known)
    (channel : s.channel = some ⟨clientIp, r :: requests, responses⟩)
    (registered : ∀ name, known name <+: services (r.handle s.serviceMap) name) :
    Awaited known { s with
      serviceMap := r.handle s.serviceMap
      channel := some ⟨clientIp, requests, responses ++ r.response s.serviceMap⟩ } := by
  rcases awaited with cached | ⟨_, _, _, same, response, underWay, about⟩ | ⟨_, _, _, same, underWay⟩
  · exact .taken cached
  · obtain ⟨rfl, rfl, rfl⟩ := Channel.mk.inj (Option.some.inj (channel.symm.trans same))
    exact .answered clientIp requests _ rfl response (List.mem_append_left _ underWay) about
  · obtain ⟨rfl, rfl, rfl⟩ := Channel.mk.inj (Option.some.inj (channel.symm.trans same))
    rcases List.mem_cons.mp underWay with rfl | behind
    · obtain ⟨response, sent, whole⟩ := response_allServices s.serviceMap
      refine .answered clientIp requests _ rfl response ?_ fun name => ⟨_, whole name, registered name⟩
      rw [sent]
      exact List.mem_append_right _ List.mem_cons_self
    · exact .asked clientIp requests _ rfl behind

/-- The client takes over the answer itself, or a response before it. -/
theorem Awaited.deliver {clientIp : String} {requests : List Request} {r : Response}
    {responses : List Response} (awaited : s.Awaited known) (inv : s.Inv)
    (channel : s.channel = some ⟨clientIp, requests, r :: responses⟩) :
    Awaited known { s with
      client := receive s.client r, channel := some ⟨clientIp, requests, responses⟩ } := by
  have later := (inv.deliver channel).2
  rcases awaited with cached | ⟨_, _, _, same, response, underWay, about⟩ | ⟨_, _, _, same, underWay⟩
  · exact .taken fun name => (cached name).trans (later name)
  · obtain ⟨rfl, rfl, rfl⟩ := Channel.mk.inj (Option.some.inj (channel.symm.trans same))
    rcases List.mem_cons.mp underWay with rfl | behind
    · have proper : Proper response := inv.proper response (by
        rw [inFlight, channel]
        exact List.mem_cons_self)
      refine .taken fun name => ?_
      obtain ⟨list, is, le⟩ := about name
      rw [cached, (receive_sound inv.saved proper).2 name, is]
      exact le
    · exact .answered clientIp requests responses rfl response behind about
  · obtain ⟨rfl, rfl, rfl⟩ := Channel.mk.inj (Option.some.inj (channel.symm.trans same))
    exact .asked clientIp requests responses rfl underWay

/-- As long as the connection is there, the lists are on their way. -/
theorem Fresh.step [Protobuf] (fresh : s.Fresh known) {event : Event} (stays : event ≠ .disconnect)
    (step : s.step event = some s') : s'.Fresh known := by
  obtain ⟨inv, registered, awaited⟩ := fresh
  obtain ⟨inv', later⟩ := inv.step step
  have grown (request : Request) (name : String) :
      known name <+: services (request.handle s.serviceMap) name :=
    (registered name).trans (services_handle s.serviceMap request name)
  have unsent {s' : Discovery} (same : s'.channel = s.channel) : ∀ clientIp requests responses,
      s.channel = some ⟨clientIp, requests, responses⟩ →
        ∃ more, s'.channel = some ⟨clientIp, requests ++ more, responses⟩ :=
    fun clientIp requests responses channel => ⟨[], by rw [same, channel, List.append_nil]⟩
  cases event with
  | disconnect => exact absurd rfl stays
  | request r =>
    obtain rfl := Option.some.inj step
    exact ⟨inv', grown r, awaited.carry later (unsent rfl)⟩
  | connect clientIp =>
    simp only [Discovery.step] at step
    split at step
    · cases step
    next missing =>
      obtain rfl := Option.some.inj step
      refine ⟨inv', registered, awaited.carry later fun _ _ _ channel => ?_⟩
      rw [missing] at channel
      cases channel
  | getServiceReq serviceName =>
    obtain rfl := Option.some.inj step
    exact ⟨inv', registered, awaited.carry later fun _ _ _ channel => ⟨_, by rw [channel]; rfl⟩⟩
  | serve =>
    simp only [Discovery.step] at step
    split at step
    next channel =>
      obtain rfl := Option.some.inj step
      exact ⟨inv', grown _, awaited.serve channel (grown _)⟩
    · cases step
  | deliver =>
    simp only [Discovery.step] at step
    split at step
    next channel =>
      obtain rfl := Option.some.inj step
      exact ⟨inv', registered, awaited.deliver inv channel⟩
    · cases step
  | loadLocalFile =>
    obtain rfl := Option.some.inj step
    exact ⟨inv', registered, awaited.carry later (unsent rfl)⟩
  | getAllService =>
    obtain rfl := Option.some.inj step
    exact ⟨inv', registered, awaited.carry later (unsent rfl)⟩

/-- No request and no response is under way. -/
def Quiet (s : Discovery) : Prop := ∀ c, s.channel = some c → c.requests = [] ∧ c.responses = []

/-- Once nothing is under way, the lists are in the cache. -/
theorem Fresh.cached (fresh : s.Fresh known) (quiet : s.Quiet) (name : String) :
    known name <+: s.cached name := by
  rcases fresh.awaited with cached | ⟨_, _, responses, channel, response, underWay, -⟩ |
    ⟨_, requests, _, channel, underWay⟩
  · exact cached name
  · have none_left : responses = [] := (quiet _ channel).2
    rw [none_left] at underWay
    cases underWay
  · have none_left : requests = [] := (quiet _ channel).1
    rw [none_left] at underWay
    cases underWay

end Discovery

end MicroserviceFramework.Register
