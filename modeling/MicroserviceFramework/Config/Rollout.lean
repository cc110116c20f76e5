import MicroserviceFramework.Config.OwnConfig
import MicroserviceFramework.Config.Refinement
import MicroserviceFramework.Library.Snapshots

/-!
# How a configuration gets to its service

The config centre with its table, and one service with its connection, which keeps the order of
requests and of answers. Others upload and delete configurations in the meantime, and the service
also downloads configurations of other services.

An answer says what was stored for a service after some number of requests of the others, which is
the answer's version. The service goes through the versions of its own configuration in order, and
has the one that was there when it asked, or a later one, once nothing is under way.

The table is empty at the start, all statements of the config centre succeed, strings compare
exactly, and the addresses are clean. A statement that fails can empty the running configuration.
-/

namespace MicroserviceFramework.Config

open Library Library.Wire Platform
open Auth (cstr)

/-- The configuration that a service finds after these requests. -/
def current [Protobuf] (history : List Request) (key : Key) : CConfig :=
  (stored history key).getD { serviceIp := key.1, servicePort := key.2 }

/-- A connection of the service. With each answer goes the number of requests from others that the
config centre had handled. -/
structure Link where
  requests : List (List UInt8) := []
  answers : List (Nat × CConfig) := []

structure Rollout (M : Type) where
  dao : ConfigDAO := {}
  /-- The requests of the others so far. -/
  history : List Request := []
  client : CConfigClient M
  /-- The version of the running configuration, when it came from an answer. -/
  version : Option Nat := none
  link : Option Link := none

namespace Rollout

section

variable [Protobuf] {M : Type} (codec : Codec M) (clientIp : String)

/-- The service that the client is started for. -/
def own (c : CConfigClient M) : Key := (CConfigHandle.fillIp clientIp c.localIp, c.localPort)

inductive Event where
  /-- Somebody else uploads, downloads or deletes. -/
  | request (r : Request)
  | connect
  | disconnect
  | timerCb
  | downloadConfig (ip : String) (port : Int32)
  | serve
  /-- The next answer arrives; `opened` is whether the client can write its file. -/
  | deliver (opened : Bool)

/-- A request goes out if there is one and there is a connection. -/
def send (body : Option (List UInt8)) (s : Rollout M) : Rollout M :=
  { s with link := s.link.map fun link => { link with requests := link.requests ++ body.toList } }

def step (s : Rollout M) : Event → Option (Rollout M)
  | .request r => some { s with dao := r.handle s.dao, history := s.history ++ [r] }
  | .connect =>
    match s.link with
    | some _ => none
    | none => some { s with link := some {} }
  | .disconnect => some { s with link := none }
  | .timerCb => some (s.send s.client.timerCb)
  | .downloadConfig ip port => some (s.send (CConfigClient.downloadConfig ip port))
  | .serve =>
    match s.link with
    | some { requests := body :: requests, answers } =>
      some { s with
        link := some
          { requests := requests
            answers := answers ++ (CConfigHandle.answer .exact {} clientIp body s.dao).toList.map
              (s.history.length, ·) } }
    | _ => none
  | .deliver opened =>
    match s.link with
    | some { requests, answers := (v, conf) :: answers } =>
      some { s with
        client := s.client.downloadConfigRes codec (Message.serialize conf) opened
        version := if s.client.OwnKey conf then some v else s.version
        link := some { requests := requests, answers := answers } }
    | _ => none

def machine : Machine (Rollout M) Event := ⟨step codec clientIp⟩

/-- The addresses that are asked for and uploaded for are clean. The client is told its address, or
it asks for configurations with its port only under the address of its connection. -/
def Allowed (s : Rollout M) : Event → Prop
  | .request r => r.Clean
  | .downloadConfig ip port =>
    Clean (CConfigHandle.fillIp clientIp ip) ∧ CConfigHandle.fillIp clientIp ip ≠ "" ∧
      (Message.serialize { serviceIp := ip, servicePort := port : CDownloadconfigReq }).length <
        2 ^ 31 ∧
      (s.client.localIp = "" → port = s.client.localPort →
        CConfigHandle.fillIp clientIp ip = clientIp)
  | _ => True

/-- The running configuration is that of the start, or its version of what is stored for the
service. -/
def Runs (start : CConfigClient M) (s : Rollout M) : Prop :=
  match s.version with
  | none => s.client.curServiceConfig = start.curServiceConfig
  | some v => s.client.curServiceConfig =
      some (codec.parse (current (s.history.take v) (own clientIp start)).privatePb).2

/-- What the client is started with: a message of its type and a port, and a clean address, which
the config centre fills in if the client has none. -/
structure Started (c : CConfigClient M) : Prop where
  message : c.curServiceConfig.isSome
  port : 0 < c.localPort ∧ c.localPort < 65536
  address : Clean (CConfigHandle.fillIp clientIp c.localIp)
  known : CConfigHandle.fillIp clientIp c.localIp ≠ ""
  short : (Message.serialize
    { serviceIp := c.localIp, servicePort := c.localPort : CDownloadconfigReq }).length < 2 ^ 31

/-- A request that is under way: what its answer will be taken for. -/
structure Asks (start : CConfigClient M) (body : List UInt8) (key : Key) : Prop where
  handled : ∀ dao, CConfigHandle.downloadConfig .exact {} clientIp body dao =
    some (sendMsg .MSG_DOWNLOAD_CONFIG_RES (dao.downloadConfig .exact {} key.1 key.2))
  clean : Clean key.1
  range : ConfigDAO.InRange key.1 key.2
  recognised : start.localIp = "" → key.2 = start.localPort → key.1 = clientIp

structure Inv (start : CConfigClient M) (s : Rollout M) : Prop where
  clean : ∀ r ∈ s.history, r.Clean
  dao : s.dao = served s.history
  localIp : s.client.localIp = start.localIp
  localPort : s.client.localPort = start.localPort
  message : s.client.curServiceConfig.isSome
  requests : ∀ link ∈ s.link, ∀ body ∈ link.requests, ∃ key, Asks clientIp start body key
  answers : ∀ link ∈ s.link, ∀ a ∈ link.answers,
    Message.parse (Message.serialize a.2) = (true, a.2) ∧
      (start.OwnKey a.2 → a.2 = current (s.history.take a.1) (own clientIp start))
  behind : Behind (· ≤ ·) (s.version.getD 0) ((s.link.map (·.answers)).getD [] |>.map (·.1))
    s.history.length
  runs : s.Runs codec clientIp start

/-! ## What is stored for a service -/

/-- A configuration is stored under its own key. -/
theorem stored_key {history : List Request} {key : Key} {conf : CConfig}
    (found : stored history key = some conf) : (conf.serviceIp, conf.servicePort) = key := by
  induction history using List.reverseRecOn with
  | nil => cases found
  | append_singleton history r ih =>
    have step : stored (history ++ [r]) = r.apply (stored history) := by simp [stored]
    rw [step, Request.apply] at found
    rcases effect : r.effect with _ | ⟨own, change⟩
    · rw [effect] at found
      exact ih found
    · rw [effect] at found
      by_cases same : key = own
      · subst same
        dsimp only at found
        rw [Function.update_self] at found
        subst found
        cases r with
        | upload clientIp msg =>
          simp only [Request.effect] at effect
          split at effect
          · cases effect
          · split at effect
            · cases effect
            · obtain ⟨rfl, new⟩ := Prod.mk.inj (Option.some.inj effect)
              obtain rfl := Option.some.inj new
              rfl
        | download clientIp msg => cases effect
        | delete msg =>
          simp only [Request.effect] at effect
          split at effect
          · cases effect
          · split at effect <;> cases effect
      · dsimp only at found
        rw [Function.update_of_ne same] at found
        exact ih found

theorem current_key (history : List Request) (key : Key) :
    ((current history key).serviceIp, (current history key).servicePort) = key := by
  rw [current]
  rcases found : stored history key with _ | conf
  · rfl
  · exact stored_key found

/-! ## Requests and answers -/

variable {codec clientIp} {start : CConfigClient M} {s t : Rollout M}

omit [Protobuf] in
theorem ownKey_iff {c : CConfigClient M} {conf : CConfig} : c.OwnKey conf ↔
    conf.servicePort = c.localPort ∧ (c.localIp ≠ "" → conf.serviceIp = c.localIp) := by
  unfold CConfigClient.OwnKey
  constructor
  · intro same
    obtain ⟨ip, port⟩ := keyOf_inj same
    exact ⟨Int32.toInt_inj.mp port, fun given => by rwa [if_neg given] at ip⟩
  · rintro ⟨port, ip⟩
    rw [port]
    split
    · rfl
    next given => rw [ip given]

/-- The client takes what is stored for its own service, and nothing else that it asks for. -/
theorem Asks.ownKey_iff {body : List UInt8} {key : Key} (asks : Asks clientIp start body key)
    (history : List Request) : start.OwnKey (current history key) ↔ key = own clientIp start := by
  obtain ⟨ip, port⟩ := Prod.mk.inj (current_key history key)
  rw [Rollout.ownKey_iff, ip, port, own]
  constructor
  · rintro ⟨samePort, sameIp⟩
    refine Prod.ext ?_ samePort
    rw [CConfigHandle.fillIp]
    split
    next none => exact asks.recognised none samePort
    next given => exact sameIp given
  · rintro rfl
    exact ⟨rfl, fun given => by rw [CConfigHandle.fillIp, if_neg given]⟩

/-- The request for the configuration of a service. -/
theorem asks_of_clean {ip : String} {port : Int32} (clean : Clean (CConfigHandle.fillIp clientIp ip))
    (known : CConfigHandle.fillIp clientIp ip ≠ "") (range : 0 < port ∧ port < 65536)
    (short : (Message.serialize
      { serviceIp := ip, servicePort := port : CDownloadconfigReq }).length < 2 ^ 31)
    (recognised : start.localIp = "" → port = start.localPort →
      CConfigHandle.fillIp clientIp ip = clientIp) :
    Asks clientIp start (Message.serialize { serviceIp := ip, servicePort := port : CDownloadconfigReq })
      (CConfigHandle.fillIp clientIp ip, port) where
  handled dao := by
    rw [CConfigHandle.downloadConfig, Message.parse_serialize short]
    dsimp only
    rw [clean.cstr]
  clean := clean
  range := ⟨known, range⟩
  recognised := recognised

/-- An answer is what is stored under the key that was asked for. -/
theorem Asks.answer {body : List UInt8} {key : Key} (asks : Asks clientIp start body key)
    {history : List Request} (clean : ∀ r ∈ history, r.Clean) {conf : CConfig}
    (answered : CConfigHandle.answer .exact {} clientIp body (served history) = some conf) :
    conf = current history key := by
  have found := (Option.filter_eq_some_iff.mp answered).1
  rw [asks.handled] at found
  have same := (Refines.served clean).downloadConfig asks.clean asks.range
  rw [current, ← same]
  exact (Option.some.inj found).symm

/-- What an answer makes of the running configuration. -/
theorem curServiceConfig_downloadConfigRes {c : CConfigClient M} {conf : CConfig}
    (parsed : Message.parse (Message.serialize conf) = (true, conf)) (port : 0 < c.localPort)
    (message : c.curServiceConfig.isSome) (opened : Bool) :
    (c.downloadConfigRes codec (Message.serialize conf) opened).curServiceConfig =
      if c.OwnKey conf then some (codec.parse conf.privatePb).2 else c.curServiceConfig := by
  have wanted : ¬(c.localPort ≤ 0 ∨ c.curServiceConfig.isNone) := by
    rw [not_or, Option.isNone_iff_eq_none, ← Ne, Option.ne_none_iff_isSome]
    exact ⟨Int32.not_le.mpr port, message⟩
  by_cases taken : c.OwnKey conf
  · have same : keyOf conf.serviceIp conf.servicePort.toInt =
        keyOf (if c.localIp = "" then conf.serviceIp else c.localIp) c.localPort.toInt := taken
    rw [if_pos taken]
    unfold CConfigClient.downloadConfigRes
    rw [parsed]
    dsimp only
    rw [if_neg wanted, if_neg (not_not.mpr same)]
    rcases codec.parse conf.privatePb with ⟨_ | _, m⟩
    · rfl
    · dsimp only
      split <;> rfl
  · have other : keyOf conf.serviceIp conf.servicePort.toInt ≠
        keyOf (if c.localIp = "" then conf.serviceIp else c.localIp) c.localPort.toInt := taken
    rw [if_neg taken]
    unfold CConfigClient.downloadConfigRes
    rw [parsed]
    dsimp only
    rw [if_neg wanted, if_pos other]

/-! ## The invariant -/

omit [Protobuf] in
theorem ownKey_congr {c c' : CConfigClient M} (localIp : c'.localIp = c.localIp)
    (localPort : c'.localPort = c.localPort) (conf : CConfig) : c'.OwnKey conf ↔ c.OwnKey conf := by
  rw [ownKey_iff, ownKey_iff, localIp, localPort]

theorem Inv.init (started : Started clientIp start) :
    ({ client := start } : Rollout M).Inv codec clientIp start where
  clean _ mem := by cases mem
  dao := rfl
  localIp := rfl
  localPort := rfl
  message := started.message
  requests _ mem := by cases mem
  answers _ mem := by cases mem
  behind := .start (Nat.le_refl 0)
  runs := rfl

/-- The others make a request. -/
theorem Inv.request (inv : s.Inv codec clientIp start) {r : Request} (clean : r.Clean) :
    Inv codec clientIp start { s with dao := r.handle s.dao, history := s.history ++ [r] } := by
  have same {v : Nat} (le : v ≤ s.history.length) :
      (s.history ++ [r]).take v = s.history.take v := List.take_append_of_le_length le
  refine ⟨fun r' mem => ?_, ?_, inv.localIp, inv.localPort, inv.message, inv.requests,
    fun link there a mem => ?_, ?_, ?_⟩
  · rcases List.mem_append.mp mem with old | new
    · exact inv.clean r' old
    · exact List.mem_singleton.mp new ▸ clean
  · dsimp only
    rw [inv.dao, served, served, List.foldl_append]
    rfl
  · have le : a.1 ≤ s.history.length := by
      apply inv.behind.notAhead
      rw [Option.mem_def.mp there]
      exact List.mem_cons_of_mem _ (List.mem_map_of_mem mem)
    obtain ⟨parsed, taken⟩ := inv.answers link there a mem
    refine ⟨parsed, ?_⟩
    rw [same le]
    exact taken
  · dsimp only
    rw [List.length_append]
    exact inv.behind.grow (Nat.le_add_right _ _)
  · have runs := inv.runs
    unfold Runs at runs ⊢
    dsimp only
    rcases version : s.version with _ | v
    · rw [version] at runs
      exact runs
    · have le : v ≤ s.history.length := by
        have le := inv.behind.copy_le
        rwa [version] at le
      rw [version] at runs
      dsimp only at runs ⊢
      rw [same le]
      exact runs

/-- A request of the service goes out. -/
theorem Inv.send (inv : s.Inv codec clientIp start) {body : Option (List UInt8)}
    (asks : ∀ b ∈ body, ∃ key, Asks clientIp start b key) :
    Inv codec clientIp start (s.send body) := by
  refine ⟨inv.clean, inv.dao, inv.localIp, inv.localPort, inv.message, fun link there => ?_,
    fun link there => ?_, ?_, inv.runs⟩
  · obtain ⟨old, was, rfl⟩ := Option.map_eq_some_iff.mp there
    intro b mem
    rcases List.mem_append.mp mem with before | new
    · exact inv.requests old was b before
    · exact asks b (Option.mem_toList.mp new)
  · obtain ⟨old, was, rfl⟩ := Option.map_eq_some_iff.mp there
    exact inv.answers old was
  · have same : ((s.send body).link.map (·.answers)) = s.link.map (·.answers) := by
      rw [Rollout.send]
      cases s.link <;> rfl
    rw [same]
    exact inv.behind

/-- The config centre answers a request, and the answer goes last. -/
theorem Inv.serve (inv : s.Inv codec clientIp start) {body : List UInt8}
    {requests : List (List UInt8)} {answers : List (Nat × CConfig)}
    (link : s.link = some ⟨body :: requests, answers⟩) :
    Inv codec clientIp start { s with
      link := some ⟨requests, answers ++
        (CConfigHandle.answer .exact {} clientIp body s.dao).toList.map (s.history.length, ·)⟩ } := by
  obtain ⟨key, asks⟩ := inv.requests _ link body List.mem_cons_self
  have behind := inv.behind
  rw [link, Option.map_some, Option.getD_some] at behind
  refine ⟨inv.clean, inv.dao, inv.localIp, inv.localPort, inv.message, ?_, ?_, ?_, inv.runs⟩
  · rintro _ ⟨⟩ b mem
    exact inv.requests _ link b (List.mem_cons_of_mem _ mem)
  · rintro _ ⟨⟩ a mem
    rcases List.mem_append.mp mem with old | new
    · exact inv.answers _ link a old
    · obtain ⟨conf, answered, rfl⟩ := List.mem_map.mp new
      have answered := Option.mem_toList.mp answered
      refine ⟨CConfigHandle.parse_answer answered, fun taken => ?_⟩
      rw [inv.dao] at answered
      have value := asks.answer inv.clean answered
      have own := (asks.ownKey_iff s.history).mp (value ▸ taken)
      dsimp only
      rw [List.take_length, ← own]
      exact value
  · rw [Option.map_some, Option.getD_some, List.map_append]
    rcases CConfigHandle.answer .exact {} clientIp body s.dao with _ | conf
    · rw [Option.toList_none, List.map_nil, List.map_nil]
      dsimp only
      rw [List.append_nil]
      exact behind
    · exact behind.send

/-- The client takes the next answer, or lets it pass. -/
theorem Inv.deliver (inv : s.Inv codec clientIp start) (port : 0 < start.localPort) {v : Nat}
    {conf : CConfig} {requests : List (List UInt8)} {answers : List (Nat × CConfig)}
    (link : s.link = some ⟨requests, (v, conf) :: answers⟩) (opened : Bool) :
    Inv codec clientIp start { s with
      client := s.client.downloadConfigRes codec (Message.serialize conf) opened
      version := if s.client.OwnKey conf then some v else s.version
      link := some ⟨requests, answers⟩ } := by
  obtain ⟨parsed, value⟩ := inv.answers _ link (v, conf) List.mem_cons_self
  have behind := inv.behind
  rw [link, Option.map_some, Option.getD_some, List.map_cons] at behind
  obtain ⟨localIp, localPort⟩ :=
    s.client.downloadConfigRes_address codec (Message.serialize conf) opened
  have running : (s.client.downloadConfigRes codec (Message.serialize conf) opened).curServiceConfig =
      if s.client.OwnKey conf then some (codec.parse conf.privatePb).2
      else s.client.curServiceConfig :=
    curServiceConfig_downloadConfigRes parsed (inv.localPort ▸ port) inv.message opened
  refine ⟨inv.clean, inv.dao, localIp.trans inv.localIp, localPort.trans inv.localPort, ?_, ?_, ?_,
    ?_, ?_⟩
  · dsimp only
    rw [running]
    split
    · rfl
    · exact inv.message
  · rintro _ ⟨⟩ b mem
    exact inv.requests _ link b mem
  · rintro _ ⟨⟩ a mem
    exact inv.answers _ link a (List.mem_cons_of_mem _ mem)
  · rw [Option.map_some, Option.getD_some]
    dsimp only
    split
    · exact behind.deliver.2
    · exact behind.skip
  · have runs := inv.runs
    unfold Runs at runs ⊢
    dsimp only
    rw [running]
    by_cases taken : s.client.OwnKey conf
    · rw [if_pos taken, if_pos taken]
      dsimp only
      rw [← value ((ownKey_congr inv.localIp inv.localPort conf).mp taken)]
    · rw [if_neg taken, if_neg taken]
      exact runs

theorem Inv.step (started : Started clientIp start) (inv : s.Inv codec clientIp start)
    {event : Event} (allowed : s.Allowed clientIp event)
    (step : s.step codec clientIp event = some t) : t.Inv codec clientIp start := by
  have lost {link : Option Link} (empty : ∀ l ∈ link, l.requests = [] ∧ l.answers = []) :
      Inv codec clientIp start { s with link := link } := by
    refine ⟨inv.clean, inv.dao, inv.localIp, inv.localPort, inv.message, fun l there b mem => ?_,
      fun l there a mem => ?_, ?_, inv.runs⟩
    · rw [(empty l there).1] at mem
      cases mem
    · rw [(empty l there).2] at mem
      cases mem
    · have none_left : (link.map (·.answers)).getD [] = [] := by
        rcases link with _ | l
        · rfl
        · exact (empty l rfl).2
      dsimp only
      rw [none_left]
      exact inv.behind.lose
  cases event with
  | request r =>
    obtain rfl := Option.some.inj step
    exact inv.request allowed
  | connect =>
    simp only [Rollout.step] at step
    split at step
    · cases step
    · obtain rfl := Option.some.inj step
      exact lost (by rintro _ ⟨⟩; exact ⟨rfl, rfl⟩)
  | disconnect =>
    obtain rfl := Option.some.inj step
    exact lost (by rintro _ ⟨⟩)
  | timerCb =>
    obtain rfl := Option.some.inj step
    refine inv.send fun body sent => ?_
    obtain ⟨-, rfl⟩ := Exchange.timerCb_inv sent
    rw [inv.localIp, inv.localPort]
    refine ⟨_, asks_of_clean started.address started.known started.port started.short
      fun unknown _ => ?_⟩
    rw [CConfigHandle.fillIp, if_pos unknown]
  | downloadConfig ip port =>
    obtain rfl := Option.some.inj step
    obtain ⟨clean, known, short, recognised⟩ := allowed
    rw [inv.localIp, inv.localPort] at recognised
    refine inv.send fun body sent => ?_
    unfold CConfigClient.downloadConfig at sent
    split at sent
    · cases sent
    next range =>
      obtain rfl := Option.some.inj sent
      rw [not_or, Int32.not_le, Int32.not_le] at range
      exact ⟨_, asks_of_clean clean known range short recognised⟩
  | serve =>
    simp only [Rollout.step] at step
    split at step
    next link =>
      obtain rfl := Option.some.inj step
      exact inv.serve link
    · cases step
  | deliver opened =>
    simp only [Rollout.step] at step
    split at step
    next link =>
      obtain rfl := Option.some.inj step
      exact inv.deliver started.port.1 link opened
    · cases step

theorem machine_preserves_inv (started : Started clientIp start) :
    (machine codec clientIp).Preserves (Allowed clientIp) (Inv codec clientIp start) :=
  fun _ _ _ inv allowed step => inv.step started allowed step

theorem Inv.version_le (inv : s.Inv codec clientIp start) {event : Event}
    (step : s.step codec clientIp event = some t) : s.version.getD 0 ≤ t.version.getD 0 := by
  cases event with
  | deliver opened =>
    simp only [Rollout.step] at step
    split at step
    next link =>
      obtain rfl := Option.some.inj step
      have behind := inv.behind
      rw [link, Option.map_some, Option.getD_some, List.map_cons] at behind
      dsimp only
      split
      · exact behind.deliver.1
      · exact Nat.le_refl _
    · cases step
  | connect =>
    simp only [Rollout.step] at step
    split at step
    · cases step
    · obtain rfl := Option.some.inj step
      exact Nat.le_refl _
  | serve =>
    simp only [Rollout.step] at step
    split at step
    · obtain rfl := Option.some.inj step
      exact Nat.le_refl _
    · cases step
  | _ =>
    obtain rfl := Option.some.inj step
    exact Nat.le_refl _

/-- In every run from an empty table with statements that succeed and clean addresses, the service
has what it was started with or a version of its own configuration, one that was stored for it at
some time, and it never goes back to an earlier one. -/
theorem rollout_ordered (started : Started clientIp start) {events : List Event}
    (allowed : (machine codec clientIp).Along (Allowed clientIp) { client := start } events)
    (run : (machine codec clientIp).run { client := start } events = some s) :
    s.Runs codec clientIp start ∧ s.version.getD 0 ≤ s.history.length ∧
      ∀ event t, s.step codec clientIp event = some t → s.version.getD 0 ≤ t.version.getD 0 := by
  have inv := (machine codec clientIp).run_invariant (machine_preserves_inv started) (.init started)
    allowed run
  exact ⟨inv.runs, inv.behind.copy_le, fun event t => inv.version_le⟩

/-! ## A configuration arrives -/

/-- The request that the timer makes. -/
def ownRequest (c : CConfigClient M) : List UInt8 :=
  Message.serialize { serviceIp := c.localIp, servicePort := c.localPort : CDownloadconfigReq }

/-- A version from `n` on is there, or in an answer, or the service's own request is still to be
served. -/
inductive Awaited (start : CConfigClient M) (n : Nat) (s : Rollout M) : Prop where
  | taken (v : Nat) (version : s.version = some v) (le : n ≤ v)
  | answered (link : Link) (there : s.link = some link) (a : Nat × CConfig) (mem : a ∈ link.answers)
      (le : n ≤ a.1) (takes : start.OwnKey a.2)
  | asked (link : Link) (there : s.link = some link) (mem : ownRequest start ∈ link.requests)

variable (clientIp) in
/-- The connection stays, and the client does not refuse an answer for its size. -/
def Answered (s : Rollout M) : Event → Prop
  | .disconnect => False
  | .serve => ∀ link ∈ s.link, ∀ body ∈ link.requests.head?,
      (CConfigHandle.answer .exact {} clientIp body s.dao).isSome
  | _ => True

instance (s : Rollout M) : (event : Event) → Decidable (s.Answered clientIp event)
  | .disconnect => .isFalse id
  | .serve => inferInstanceAs (Decidable (∀ link ∈ s.link, ∀ body ∈ link.requests.head?,
      (CConfigHandle.answer .exact {} clientIp body s.dao).isSome = true))
  | .request _ | .connect | .timerCb | .downloadConfig .. | .deliver _ => .isTrue trivial

/-- The history grows, and what is awaited comes. -/
theorem Awaited.step {n : Nat} (awaited : s.Awaited start n) (started : Started clientIp start)
    (inv : s.Inv codec clientIp start) (le : n ≤ s.history.length) {event : Event}
    (answered : s.Answered clientIp event) (step : s.step codec clientIp event = some t) :
    t.Awaited start n := by
  have kept {link : Link} (there : s.link = some link) (client : t.version = s.version)
      (more : List (List UInt8)) (same : t.link = some ⟨link.requests ++ more, link.answers⟩) :
      t.Awaited start n := by
    rcases awaited with ⟨v, version, le⟩ | ⟨_, is, a, mem, le, takes⟩ | ⟨_, is, mem⟩
    · exact .taken v (client.trans version) le
    · obtain rfl := Option.some.inj (there.symm.trans is)
      exact .answered _ same a mem le takes
    · obtain rfl := Option.some.inj (there.symm.trans is)
      exact .asked _ same (List.mem_append_left _ mem)
  have unconnected (missing : s.link = none) (client : t.version = s.version) :
      t.Awaited start n := by
    rcases awaited with ⟨v, version, le⟩ | ⟨_, is, -⟩ | ⟨_, is, -⟩
    · exact .taken v (client.trans version) le
    · rw [missing] at is
      cases is
    · rw [missing] at is
      cases is
  cases event with
  | disconnect => exact answered.elim
  | request r =>
    obtain rfl := Option.some.inj step
    rcases Option.eq_none_or_eq_some s.link with missing | ⟨link, there⟩
    · exact unconnected missing rfl
    · exact kept there rfl [] (by rw [List.append_nil]; exact there)
  | connect =>
    simp only [Rollout.step] at step
    split at step
    · cases step
    next missing =>
      obtain rfl := Option.some.inj step
      exact unconnected missing rfl
  | timerCb =>
    obtain rfl := Option.some.inj step
    rcases Option.eq_none_or_eq_some s.link with missing | ⟨link, there⟩
    · exact unconnected missing rfl
    · exact kept there rfl _ (by rw [Rollout.send, there]; rfl)
  | downloadConfig ip port =>
    obtain rfl := Option.some.inj step
    rcases Option.eq_none_or_eq_some s.link with missing | ⟨link, there⟩
    · exact unconnected missing rfl
    · exact kept there rfl _ (by rw [Rollout.send, there]; rfl)
  | serve =>
    simp only [Rollout.step] at step
    split at step
    next body requests answers link =>
      obtain rfl := Option.some.inj step
      rcases awaited with ⟨v, version, le⟩ | ⟨_, is, a, mem, le, takes⟩ | ⟨_, is, mem⟩
      · exact .taken v version le
      · obtain rfl := Option.some.inj (link.symm.trans is)
        exact .answered _ rfl a (List.mem_append_left _ mem) le takes
      · obtain rfl := Option.some.inj (link.symm.trans is)
        rcases List.mem_cons.mp mem with rfl | behind
        · -- this is the service's own request, and the answer goes last
          obtain ⟨conf, answer⟩ := Option.isSome_iff_exists.mp (answered _ link _ rfl)
          obtain ⟨key, asks⟩ := inv.requests _ link _ List.mem_cons_self
          have own : Asks clientIp start (ownRequest start) (own clientIp start) :=
            asks_of_clean started.address started.known started.port started.short
              fun unknown _ => by rw [CConfigHandle.fillIp, if_pos unknown]
          have takes : start.OwnKey conf := by
            have answer' := answer
            rw [inv.dao] at answer'
            rw [own.answer inv.clean answer']
            exact (own.ownKey_iff s.history).mpr rfl
          refine .answered _ rfl (s.history.length, conf) (List.mem_append_right _ ?_) le takes
          rw [answer]
          exact List.mem_singleton_self _
        · exact .asked _ rfl behind
    · cases step
  | deliver opened =>
    simp only [Rollout.step] at step
    split at step
    next requests v conf answers link =>
      obtain rfl := Option.some.inj step
      have same := ownKey_congr inv.localIp inv.localPort conf
      have behind := inv.behind
      rw [link, Option.map_some, Option.getD_some, List.map_cons] at behind
      rcases awaited with ⟨w, version, le⟩ | ⟨_, is, a, mem, le, takes⟩ | ⟨_, is, mem⟩
      · by_cases taken : s.client.OwnKey conf
        · have later := behind.deliver.1
          rw [version, Option.getD_some] at later
          exact .taken v (if_pos taken) (Nat.le_trans le later)
        · exact .taken w ((if_neg taken).trans version) le
      · obtain rfl := Option.some.inj (link.symm.trans is)
        rcases List.mem_cons.mp mem with rfl | behind
        · exact .taken v (if_pos (same.mpr takes)) le
        · exact .answered _ rfl a behind le takes
      · obtain rfl := Option.some.inj (link.symm.trans is)
        exact .asked _ rfl mem
    · cases step

theorem history_step {event : Event} (step : s.step codec clientIp event = some t) :
    s.history <+: t.history := by
  cases event with
  | request r =>
    obtain rfl := Option.some.inj step
    exact List.prefix_append _ _
  | connect =>
    simp only [Rollout.step] at step
    split at step
    · cases step
    · obtain rfl := Option.some.inj step
      exact List.prefix_refl _
  | serve =>
    simp only [Rollout.step] at step
    split at step
    · obtain rfl := Option.some.inj step
      exact List.prefix_refl _
    · cases step
  | deliver opened =>
    simp only [Rollout.step] at step
    split at step
    · obtain rfl := Option.some.inj step
      exact List.prefix_refl _
    · cases step
  | _ =>
    obtain rfl := Option.some.inj step
    exact List.prefix_refl _

/-- Requests for other services leave what is stored. -/
theorem current_append {history more : List Request} {key : Key}
    (others : ∀ r ∈ more, ∀ change, r.effect = some change → change.1 ≠ key) :
    current (history ++ more) key = current history key := by
  induction more using List.reverseRecOn with
  | nil => rw [List.append_nil]
  | append_singleton more r ih =>
    have before := ih fun r mem => others r (List.mem_append_left _ mem)
    have last := others r (List.mem_append_right _ (List.mem_singleton_self r))
    have step : stored (history ++ (more ++ [r])) key = r.apply (stored (history ++ more)) key := by
      rw [← List.append_assoc]
      simp [stored]
    have same : r.apply (stored (history ++ more)) key = stored (history ++ more) key := by
      rw [Request.apply]
      rcases effect : r.effect with _ | change
      · rfl
      · exact Function.update_of_ne (Ne.symm (last change effect)) _ _
    rw [current, step, same, ← current, before]

/-- In the same runs, once a request of the timer and all that was under way with it is answered,
the service runs with a version of its configuration that is not older than the request. If nobody
changed it since, that is the one that was stored. -/
theorem rollout_fresh (started : Started clientIp start) {before between : List Event}
    (reached : (machine codec clientIp).run { client := start } before = some s)
    (allowed : (machine codec clientIp).Along (Allowed clientIp) { client := start } before)
    (connected : s.link.isSome)
    (asked : (machine codec clientIp).run s (.timerCb :: between) = some t)
    (allowed' : (machine codec clientIp).Along
      (fun s event => s.Allowed clientIp event ∧ s.Answered clientIp event) s (.timerCb :: between))
    (quiet : ∀ link ∈ t.link, link.requests = [] ∧ link.answers = []) :
    (∃ v, s.history.length ≤ v ∧ v ≤ t.history.length ∧ t.client.curServiceConfig =
      some (codec.parse (current (t.history.take v) (own clientIp start)).privatePb).2) ∧
    ((∀ r ∈ t.history.drop s.history.length, ∀ change, r.effect = some change →
        change.1 ≠ own clientIp start) →
      t.client.curServiceConfig =
        some (codec.parse (current s.history (own clientIp start)).privatePb).2) := by
  have inv := (machine codec clientIp).run_invariant (machine_preserves_inv started) (.init started)
    allowed reached
  obtain ⟨s', query, meantime⟩ := Option.bind_eq_some_iff.mp asked
  have query : s.step codec clientIp .timerCb = some s' := query
  have first : s'.Inv codec clientIp start ∧ s.history <+: s'.history ∧
      s'.Awaited start s.history.length := by
    refine ⟨inv.step started allowed'.1.1 query, history_step query, ?_⟩
    obtain ⟨link, there⟩ := Option.isSome_iff_exists.mp connected
    obtain rfl := Option.some.inj query
    have sent : s.client.timerCb = some (ownRequest start) := by
      rw [CConfigClient.timerCb, CConfigClient.downloadConfig, inv.localIp, inv.localPort,
        if_pos started.port.1,
        if_neg (not_or.mpr ⟨Int32.not_le.mpr started.port.1, Int32.not_le.mpr started.port.2⟩)]
      rfl
    refine .asked { link with requests := link.requests ++ [ownRequest start] } ?_
      (List.mem_append_right _ (List.mem_singleton_self _))
    rw [Rollout.send, there, sent]
    rfl
  have last : t.Inv codec clientIp start ∧ s.history <+: t.history ∧
      t.Awaited start s.history.length := by
    refine (machine codec clientIp).run_invariant (I := fun u => u.Inv codec clientIp start ∧
      s.history <+: u.history ∧ u.Awaited start s.history.length) ?_ first (allowed'.2 s' query)
      meantime
    rintro u event u' ⟨inv, history, awaited⟩ ⟨allowed, answered⟩ step
    exact ⟨inv.step started allowed step, history.trans (history_step step),
      awaited.step started inv history.length_le answered step⟩
  obtain ⟨inv', history, awaited⟩ := last
  obtain ⟨v, version, le⟩ : ∃ v, t.version = some v ∧ s.history.length ≤ v := by
    rcases awaited with ⟨v, version, le⟩ | ⟨link, there, a, mem, -⟩ | ⟨link, there, mem⟩
    · exact ⟨v, version, le⟩
    · rw [(quiet link there).2] at mem
      cases mem
    · rw [(quiet link there).1] at mem
      cases mem
  have le' : v ≤ t.history.length := by
    have le' := inv'.behind.copy_le
    rwa [version] at le'
  have runs := inv'.runs
  unfold Runs at runs
  rw [version] at runs
  dsimp only at runs
  refine ⟨⟨v, le, le', runs⟩, fun others => ?_⟩
  obtain ⟨more, whole⟩ := history
  have cut : t.history.take v = s.history ++ more.take (v - s.history.length) := by
    rw [← whole, List.take_append, List.take_of_length_le le]
  have later : ∀ r ∈ more.take (v - s.history.length), ∀ change, r.effect = some change →
      change.1 ≠ own clientIp start := by
    intro r mem
    apply others r
    rw [← whole, List.drop_left]
    exact List.mem_of_mem_take mem
  rw [cut, current_append later] at runs
  exact runs

end

/-! ## The directory service -/

open Library.Wire.Reader
open OwnConfig (directory directoryOf rootOf)

theorem started_directory : Started "10.0.0.1" directory where
  message := rfl
  port := by decide
  address := by decide
  known := by decide
  short := by decide

/-- Its configuration is uploaded from another host. -/
def newRoot : Request :=
  .upload "10.0.0.9" (Message.serialize (directoryOf "10.0.0.1" (rootOf "/new")))

theorem newRoot_clean : newRoot.Clean := by
  have parsed : Message.parse (Message.serialize (directoryOf "10.0.0.1" (rootOf "/new"))) =
      (true, directoryOf "10.0.0.1" (rootOf "/new")) := Message.parse_serialize (by decide +kernel)
  simp only [newRoot, Request.Clean, parsed]
  exact ⟨by decide, by decide +kernel⟩

/-- The upload is handled before the service connects and asks. -/
theorem allowed_newRoot : (machine (Message.codec : Codec CDirConfig) "10.0.0.1").Along
    (Allowed "10.0.0.1") { client := directory } [.request newRoot, .connect] :=
  ⟨newRoot_clean, fun _ _ => ⟨trivial, fun _ _ => trivial⟩⟩

/-- Then the timer asks, and the answer arrives. -/
def takesNewRoot : List Event := [.request newRoot, .connect, .timerCb, .serve, .deliver true]

/-- The service runs with what was uploaded, as it was stored by the first request. -/
theorem rollout_ordered_directory : ∃ s, (machine (Message.codec : Codec CDirConfig)
      "10.0.0.1").run { client := directory } takesNewRoot = some s ∧
    s.version = some 1 ∧ s.client.curServiceConfig = some { root := "/new" } ∧
    s.Runs Message.codec "10.0.0.1" directory := by
  have state : ((machine (Message.codec : Codec CDirConfig) "10.0.0.1").run { client := directory }
      takesNewRoot).map (fun s => (s.version, s.client.curServiceConfig)) =
      some (some 1, some { root := "/new" }) := by decide +kernel
  obtain ⟨s, run, state⟩ := Option.map_eq_some_iff.mp state
  obtain ⟨version, running⟩ := Prod.mk.inj state
  have allowed : (machine (Message.codec : Codec CDirConfig) "10.0.0.1").Along
      (Allowed "10.0.0.1") { client := directory } takesNewRoot :=
    ⟨newRoot_clean, fun _ _ => ⟨trivial, fun _ _ => ⟨trivial, fun _ _ => ⟨trivial, fun _ _ =>
      ⟨trivial, fun _ _ => trivial⟩⟩⟩⟩⟩
  exact ⟨s, run, version, running, (rollout_ordered started_directory allowed run).1⟩

theorem rollout_fresh_directory : ∃ s t,
    (machine (Message.codec : Codec CDirConfig) "10.0.0.1").run { client := directory }
        [.request newRoot, .connect] = some s ∧
      (machine Message.codec "10.0.0.1").run s [.timerCb, .serve, .deliver true] = some t ∧
      t.client.curServiceConfig =
        some (Message.codec.parse (current s.history ("10.0.0.1", 80)).privatePb).2 := by
  have states : ((machine (Message.codec : Codec CDirConfig) "10.0.0.1").run { client := directory }
      [.request newRoot, .connect]).bind (fun s =>
        ((machine Message.codec "10.0.0.1").run s [.timerCb, .serve, .deliver true]).map fun t =>
          (s.link.isSome, t.link.all fun link => link.requests.isEmpty && link.answers.isEmpty,
            t.history.length - s.history.length,
            decide ((machine Message.codec "10.0.0.1").Along (Answered "10.0.0.1") s
              [.timerCb, .serve, .deliver true]))) =
      some (true, true, 0, true) := by decide +kernel
  obtain ⟨s, reached, states⟩ := Option.bind_eq_some_iff.mp states
  obtain ⟨t, asked, states⟩ := Option.map_eq_some_iff.mp states
  simp only [Prod.mk.injEq, decide_eq_true_eq, Option.all_eq_true, Bool.and_eq_true,
    List.isEmpty_iff] at states
  obtain ⟨connected, quiet, nobody, answered⟩ := states
  have allowed' : (machine Message.codec "10.0.0.1").Along
      (fun s event => s.Allowed "10.0.0.1" event ∧ s.Answered "10.0.0.1" event) s
      [.timerCb, .serve, .deliver true] := by
    obtain ⟨-, serve⟩ := answered
    refine ⟨⟨trivial, trivial⟩, fun u step => ⟨⟨trivial, (serve u step).1⟩, fun v step' => ?_⟩⟩
    exact ⟨⟨trivial, trivial⟩, fun _ _ => trivial⟩
  have fresh := (rollout_fresh started_directory reached allowed_newRoot connected asked allowed'
    quiet).2
  have none_since : t.history.drop s.history.length = [] :=
    List.drop_eq_nil_of_le (Nat.sub_eq_zero_iff_le.mp nobody)
  rw [none_since] at fresh
  exact ⟨s, t, reached, asked, fresh (by simp)⟩

end Rollout

end MicroserviceFramework.Config
