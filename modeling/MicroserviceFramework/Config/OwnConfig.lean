import MicroserviceFramework.Config.CConfigClient

/-!
# Whose configuration a service runs with

A service can download other configurations than its own. Their answers come to the same callback,
which recognises the service's own by its key. Where the service was started without an address,
the address in that key is the one in the answer, so the port alone decides.

Here requests are answered, and answers arrive, in any order.
-/

namespace MicroserviceFramework.Config

open Library Library.Wire Platform

structure OwnConfig (M : Type) where
  client : CConfigClient M
  requests : List (List UInt8) := []
  responses : List CConfig := []
  /-- The answers that have arrived. -/
  received : List CConfig := []

namespace OwnConfig

section

variable [Protobuf] {M : Type} (collation : Collation) (codec : Codec M) (clientIp : String)

/-- `sent` is whether a message gets to the other side. -/
inductive Event where
  | timerCb (sent : Bool)
  | downloadConfig (ip : String) (port : Int32) (sent : Bool)
  | serve (i : Nat) (o : Outcome) (dao : ConfigDAO) (sent : Bool)
  | downloadConfigRes (i : Nat) (opened : Bool)

/-- A request goes out, if there is one. -/
def send (s : OwnConfig M) (body : Option (List UInt8)) (sent : Bool) : OwnConfig M :=
  { s with requests := s.requests ++ if sent then body.toList else [] }

def step (s : OwnConfig M) : Event → Option (OwnConfig M)
  | .timerCb sent => some (s.send s.client.timerCb sent)
  | .downloadConfig ip port sent => some (s.send (CConfigClient.downloadConfig ip port) sent)
  | .serve i o dao sent => do
    let body ← s.requests[i]?
    let conf := CConfigHandle.answer collation o clientIp body dao
    some { s with
      requests := s.requests.eraseIdx i
      responses := s.responses ++ if sent then conf.toList else [] }
  | .downloadConfigRes i opened => do
    let conf ← s.responses[i]?
    some { s with
      client := s.client.downloadConfigRes codec (Message.serialize conf) opened
      responses := s.responses.eraseIdx i
      received := s.received ++ [conf] }

def machine : Machine (OwnConfig M) Event := ⟨step collation codec clientIp⟩

/-- The configuration has the key of the service, whose address is that of its connection if it was
not given one. -/
def Own (client : CConfigClient M) (conf : CConfig) : Prop :=
  keyOf conf.serviceIp conf.servicePort.toInt =
    keyOf (CConfigHandle.fillIp clientIp client.localIp) client.localPort.toInt

/-- The answer for another service changes nothing. -/
def ForeignIgnored (s : OwnConfig M) : Event → Prop
  | .downloadConfigRes i opened => ∀ conf ∈ s.responses[i]?, ¬Own clientIp s.client conf →
      let client := s.client.downloadConfigRes codec (Message.serialize conf) opened
      client.curServiceConfig = s.client.curServiceConfig ∧ client.cache = s.client.cache
  | _ => True

/-- The running configuration is that of the start, or comes from an answer that is the service's
own. -/
def RunsOwn (start : CConfigClient M) (s : OwnConfig M) : Prop :=
  s.client.curServiceConfig = start.curServiceConfig ∨
    ∃ conf ∈ s.received, Own clientIp start conf ∧ ∃ m, codec.parse conf.privatePb = (true, m) ∧
      s.client.curServiceConfig = some m

/-- For a service without an address of its own no answer arrives with its port and another address
than that of its connection. What arrives for the service itself can be parsed. -/
def Recognisable (s : OwnConfig M) : Event → Prop
  | .downloadConfigRes i _ => ∀ conf ∈ s.responses[i]?, s.client.curServiceConfig.isSome →
      (s.client.localIp = "" → conf.servicePort = s.client.localPort →
        conf.serviceIp = clientIp) ∧
      (Own clientIp s.client conf → (codec.parse conf.privatePb).1 = true)
  | _ => True

instance (client : CConfigClient M) (conf : CConfig) : Decidable (Own clientIp client conf) :=
  inferInstanceAs (Decidable (_ = _))

instance [DecidableEq M] (s : OwnConfig M) :
    (event : Event) → Decidable (s.ForeignIgnored codec clientIp event)
  | .timerCb _ | .downloadConfig .. | .serve .. => .isTrue trivial
  | .downloadConfigRes i _ =>
    inferInstanceAs (Decidable (∀ conf ∈ s.responses[i]?, ¬Own clientIp s.client conf → _ ∧ _))

instance (s : OwnConfig M) : (event : Event) → Decidable (s.Recognisable codec clientIp event)
  | .timerCb _ | .downloadConfig .. | .serve .. => .isTrue trivial
  | .downloadConfigRes i _ =>
    inferInstanceAs (Decidable (∀ conf ∈ s.responses[i]?, s.client.curServiceConfig.isSome → _ ∧ _))

variable {collation codec clientIp} {start : CConfigClient M} {s s' : OwnConfig M}

/-- The answers that are there can be parsed, and the client has the address and port that it was
started with. -/
structure Inv (codec : Codec M) (clientIp : String) (start : CConfigClient M) (s : OwnConfig M) :
    Prop where
  parsed : ∀ conf ∈ s.responses, Message.parse (Message.serialize conf) = (true, conf)
  localIp : s.client.localIp = start.localIp
  localPort : s.client.localPort = start.localPort
  runsOwn : s.RunsOwn codec clientIp start

theorem Inv.init : ({ client := start } : OwnConfig M).Inv codec clientIp start where
  parsed conf mem := by cases mem
  localIp := rfl
  localPort := rfl
  runsOwn := .inl rfl

theorem Inv.own_iff (inv : s.Inv codec clientIp start) (conf : CConfig) :
    Own clientIp s.client conf ↔ Own clientIp start conf := by
  unfold Own
  rw [inv.localIp, inv.localPort]

omit [Protobuf] in
/-- An answer that is taken for the service's own is its own. -/
theorem own_of_taken {c : CConfigClient M} {conf : CConfig} (port : conf.servicePort = c.localPort)
    (given : c.localIp ≠ "" → conf.serviceIp = c.localIp)
    (left_out : c.localIp = "" → conf.servicePort = c.localPort → conf.serviceIp = clientIp) :
    Own clientIp c conf := by
  unfold Own CConfigHandle.fillIp
  rw [port]
  split
  next none => rw [left_out none port]
  next some => rw [given some]

theorem Inv.foreignIgnored (inv : s.Inv codec clientIp start) {event : Event}
    (recognisable : s.Recognisable codec clientIp event) :
    s.ForeignIgnored codec clientIp event := by
  cases event with
  | downloadConfigRes i opened =>
    intro conf there foreign
    have parsed := inv.parsed conf (List.mem_of_getElem? there)
    rcases s.client.downloadConfigRes_cases codec parsed opened with kept | ⟨some, port, given, -⟩
    · exact kept
    · exact absurd (own_of_taken port given (recognisable conf there some).1) foreign
  | _ => trivial

theorem machine_preserves_inv : (machine collation codec clientIp).Preserves
    (Recognisable codec clientIp) (Inv codec clientIp start) := by
  intro s event s' inv recognisable step
  cases event with
  | timerCb sent =>
    obtain rfl := Option.some.inj step
    exact ⟨inv.parsed, inv.localIp, inv.localPort, inv.runsOwn⟩
  | downloadConfig ip port sent =>
    obtain rfl := Option.some.inj step
    exact ⟨inv.parsed, inv.localIp, inv.localPort, inv.runsOwn⟩
  | serve i o dao sent =>
    obtain ⟨body, there, step⟩ := Option.bind_eq_some_iff.mp step
    obtain rfl := Option.some.inj step
    refine ⟨fun conf mem => ?_, inv.localIp, inv.localPort, inv.runsOwn⟩
    rcases List.mem_append.mp mem with old | new
    · exact inv.parsed conf old
    · split at new
      · exact CConfigHandle.parse_answer (Option.mem_toList.mp new)
      · cases new
  | downloadConfigRes i opened =>
    obtain ⟨conf, there, step⟩ := Option.bind_eq_some_iff.mp step
    obtain rfl := Option.some.inj step
    have parsed := inv.parsed conf (List.mem_of_getElem? there)
    have address := s.client.downloadConfigRes_address codec (Message.serialize conf) opened
    refine ⟨fun conf' mem => inv.parsed conf' (List.eraseIdx_subset mem),
      address.1.trans inv.localIp, address.2.trans inv.localPort, ?_⟩
    rcases s.client.downloadConfigRes_cases codec parsed opened with
      kept | ⟨some, port, given, taken, -⟩
    · rcases inv.runsOwn with unchanged | ⟨old, mem, own, m, read, running⟩
      · exact .inl (kept.1.trans unchanged)
      · exact .inr ⟨old, List.mem_append_left _ mem, own, m, read, kept.1.trans running⟩
    · have own := own_of_taken port given (recognisable conf there some).1
      have whole := (recognisable conf there some).2 own
      exact .inr ⟨conf, List.mem_append_right _ (List.mem_singleton_self _), (inv.own_iff conf).mp own,
        _, Prod.ext whole rfl, taken⟩

/-- In a run in which every answer is recognisable, no answer for another service changes the
running configuration or the file, and in every state reached the running configuration is that of
the start or the service's own. -/
theorem own_config (collation : Collation) (codec : Codec M) (clientIp : String)
    (start : CConfigClient M) (events : List Event)
    (recognisable : (machine collation codec clientIp).Along (Recognisable codec clientIp)
      { client := start } events) :
    (machine collation codec clientIp).Along (ForeignIgnored codec clientIp)
        { client := start } events ∧
      ∀ s, (machine collation codec clientIp).run { client := start } events = some s →
        s.RunsOwn codec clientIp start :=
  ⟨(machine collation codec clientIp).along_of_invariant machine_preserves_inv
      (fun _ _ inv recognisable => inv.foreignIgnored recognisable) .init recognisable,
    fun _ run => ((machine collation codec clientIp).run_invariant machine_preserves_inv .init
      recognisable run).runsOwn⟩

end

/-! ## A service on port 80 that was not given its address -/

open Library.Wire.Reader

/-- Its connection comes from `10.0.0.1`. -/
def directory : CConfigClient CDirConfig where
  localPort := 80
  curServiceConfig := some { root := "/start" }

/-- A configuration for port 80 of an address. -/
def directoryOf (ip : String) (privatePb : List UInt8) : CConfig where
  serviceIp := ip
  servicePort := 80
  privatePb := privatePb

def rootOf (root : String) : List UInt8 := Message.serialize { root := root : CDirConfig }

/-- The config centre with one configuration. -/
def stored (conf : CConfig) : ConfigDAO := { rows := [.ofConfig conf] }

/-- The timer asks for the own configuration. -/
def ownDownload (privatePb : List UInt8) : List Event :=
  [.timerCb true, .serve 0 {} (stored (directoryOf "10.0.0.1" privatePb)) true,
    .downloadConfigRes 0 true]

/-- Somebody asks for the configuration of another host. -/
def otherDownload : List Event :=
  [.downloadConfig "10.0.0.9" 80 true,
    .serve 0 {} (stored (directoryOf "10.0.0.9" (rootOf "/other"))) true, .downloadConfigRes 0 true]

theorem own_config_directory :
    (machine .exact Message.codec "10.0.0.1").Along (ForeignIgnored Message.codec "10.0.0.1")
        { client := directory } (ownDownload (rootOf "/own")) ∧
      ∀ s, (machine .exact Message.codec "10.0.0.1").run { client := directory }
        (ownDownload (rootOf "/own")) = some s → s.RunsOwn Message.codec "10.0.0.1" directory :=
  own_config .exact Message.codec "10.0.0.1" directory (ownDownload (rootOf "/own"))
    (by decide +kernel)

/-- The service runs with the configuration of another host, and keeps it in its file. A
configuration of its own that is not of its type leaves it with an empty one. -/
theorem other_config_taken :
    ¬(machine .exact Message.codec "10.0.0.1").Along (ForeignIgnored Message.codec "10.0.0.1")
        { client := directory } otherDownload ∧
      (∃ s, (machine .exact Message.codec "10.0.0.1").run { client := directory } otherDownload =
          some s ∧ s.client.cache = some (rootOf "/other") ∧
        ¬s.RunsOwn Message.codec "10.0.0.1" directory) ∧
      ∃ s, (machine .exact Message.codec "10.0.0.1").run { client := directory }
          (ownDownload [0x0a, 5]) = some s ∧
        ¬s.RunsOwn Message.codec "10.0.0.1" directory := by
  refine ⟨by decide +kernel, ?_, ?_⟩
  · have trace : ((machine .exact (Message.codec : Codec CDirConfig) "10.0.0.1").run
        { client := directory } otherDownload).map (fun s =>
          (s.client.curServiceConfig, s.client.cache, s.received)) =
        some (some { root := "/other" }, some (rootOf "/other"),
          [directoryOf "10.0.0.9" (rootOf "/other")]) := by decide +kernel
    obtain ⟨s, reached, values⟩ := Option.map_eq_some_iff.mp trace
    simp only [Prod.mk.injEq] at values
    obtain ⟨running, cache, received⟩ := values
    refine ⟨s, reached, cache, ?_⟩
    rintro (unchanged | ⟨conf, mem, own, -⟩)
    · rw [running] at unchanged
      exact absurd unchanged (by decide)
    · rw [received, List.mem_singleton] at mem
      rw [mem] at own
      exact absurd own (by decide +kernel)
  · have trace : ((machine .exact (Message.codec : Codec CDirConfig) "10.0.0.1").run
        { client := directory } (ownDownload [0x0a, 5])).map (fun s =>
          (s.client.curServiceConfig, s.received)) =
        some (some {}, [directoryOf "10.0.0.1" [0x0a, 5]]) := by decide +kernel
    obtain ⟨s, reached, values⟩ := Option.map_eq_some_iff.mp trace
    simp only [Prod.mk.injEq] at values
    obtain ⟨running, received⟩ := values
    refine ⟨s, reached, ?_⟩
    rintro (unchanged | ⟨conf, mem, -, m, read, -⟩)
    · rw [running] at unchanged
      exact absurd unchanged (by decide)
    · rw [received, List.mem_singleton] at mem
      rw [mem] at read
      have whole : ((Message.codec : Codec CDirConfig).parse [0x0a, 5]).1 = true :=
        congrArg Prod.fst read
      exact absurd whole (by decide +kernel)

end OwnConfig

end MicroserviceFramework.Config
