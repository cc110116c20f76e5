import MicroserviceFramework.Config.RejectedConfig
import MicroserviceFramework.Library.Message
import MicroserviceFramework.Library.Snapshots

/-!
# When the gateway switches to TLS

For every connection that it accepts, `CRouterServer` reads the gateway's configuration one field
after the other, while the config client may exchange the configuration in between. The first time
that it finds `isSSL` it makes a context from the paths that it reads, and keeps it, whether or not
the files could be loaded.

The connections are plain up to then and TLS from then on, all with that context. Its paths are
those of configurations that the gateway had, not always of one and the same.
-/

namespace MicroserviceFramework.Gateway

open Library Library.Wire Platform Config
open Auth (cstr)

/-! ## The configuration -/

structure CGatewayConfig where
  isSSL : Bool := false
  crtPath : String := ""
  keyPath : String := ""
  caPath : String := ""
  deriving DecidableEq, Repr

instance : Message CGatewayConfig where
  layout := (Layout.cons .flag (.values [.string, .string, .string])).iso
    (fun (isSSL, crtPath, keyPath, caPath, ()) => ⟨isSSL, crtPath, keyPath, caPath⟩)
    (fun c => (c.isSSL, c.crtPath, c.keyPath, c.caPath, ())) (fun _ => rfl) fun _ => rfl
  few := by decide

inductive CGatewayConfig.Field where
  | isSSL | crtPath | keyPath | caPath

def CGatewayConfig.reflection : Reflection CGatewayConfig where
  FieldDescriptor := Field
  findFieldByName key :=
    [("isSSL", .isSSL), ("crtPath", .crtPath), ("keyPath", .keyPath), ("caPath", .caPath)].lookup key
  getInt32 _ _ := none
  getString
    | _, .isSSL => none
    | c, .crtPath => some c.crtPath
    | c, .keyPath => some c.keyPath
    | c, .caPath => some c.caPath
  getBool
    | c, .isSSL => some c.isSSL
    | _, _ => none

/-- The getters take a missing configuration for an empty one. -/
theorem CGatewayConfig.getters (conf : CConfigClient CGatewayConfig) :
    conf.getBool reflection "isSSL" = some (conf.curServiceConfig.getD {}).isSSL ∧
      conf.getString reflection "crtPath" = some (conf.curServiceConfig.getD {}).crtPath ∧
      conf.getString reflection "keyPath" = some (conf.curServiceConfig.getD {}).keyPath ∧
      conf.getString reflection "caPath" = some (conf.curServiceConfig.getD {}).caPath := by
  rcases conf with ⟨localIp, localPort, configMap, _ | current, cache⟩
  all_goals exact ⟨rfl, rfl, rfl, rfl⟩

/-! ## The context -/

/-- What the OpenSSL calls of `initServer` return. -/
structure SslCalls where
  ctx_new : Bool := true
  use_certificate_file : Bool := true
  use_PrivateKey_file : Bool := true
  check_private_key : Bool := true
  deriving DecidableEq, Repr

/-- What was put into an `SSL_CTX`. -/
structure SslCtx where
  certificate : Option String := none
  privateKey : Option String := none
  /-- The authorities, once clients have to show a certificate. -/
  verifyPeer : Option String := none
  deriving DecidableEq, Repr

structure CSSLCtx where
  sslCtx : Option SslCtx := none
  deriving DecidableEq, Repr

namespace CSSLCtx

def verify (caCrt : String) (c : CSSLCtx) : CSSLCtx :=
  match c.sslCtx with
  | none => c
  | some ctx => if caCrt = "" then c else ⟨some { ctx with verifyPeer := some caCrt }⟩

def initServer (ssl : SslCalls) (crtFile keyFile caFile : String) : Bool × CSSLCtx :=
  if !ssl.ctx_new then (false, ⟨none⟩)
  else if !ssl.use_certificate_file then (false, ⟨some {}⟩)
  else if !ssl.use_PrivateKey_file then (false, ⟨some { certificate := some crtFile }⟩)
  else
    let c : CSSLCtx := ⟨some { certificate := some crtFile, privateKey := some keyFile }⟩
    if !ssl.check_private_key then (false, c) else (true, c.verify caFile)

/-- The context of the `SSL` that is made, if one is; `ssl_new` is what `SSL_new` returns. -/
def newCSSL (ssl_new : Bool) (c : CSSLCtx) : Option SslCtx := if ssl_new then c.sslCtx else none

/-- Clients have to show a certificate only if all went well and there are authorities. -/
theorem initServer_verifyPeer (ssl : SslCalls) (crtFile keyFile caFile : String) :
    ((initServer ssl crtFile keyFile caFile).2.sslCtx.bind (·.verifyPeer)) =
      if (initServer ssl crtFile keyFile caFile).1 ∧ caFile ≠ "" then some caFile else none := by
  rcases ssl with ⟨_ | _, _ | _, _ | _, _ | _⟩
  case true.true.true.true =>
    by_cases none : caFile = ""
    · subst none
      rfl
    · simp [initServer, verify, none]
  all_goals rfl

end CSSLCtx

/-- What `initBev` makes a connection of: the bare socket, or one with an `SSL`, which may be
missing. -/
inductive Transport where
  | socket
  | openssl (ssl : Option SslCtx)
  deriving DecidableEq, Repr

def initBev (ssl_new : Bool) : Option CSSLCtx → Transport
  | none => .socket
  | some c => .openssl (c.newCSSL ssl_new)

/-! ## The listener and the config client -/

/-- Where the listener is in `createServiceHandle`. -/
inductive Listener where
  | waiting
  | isSSL
  | crtPath (crt : String)
  | keyPath (crt key : String)
  | caPath (crt key ca : String)
  deriving DecidableEq, Repr

structure CRouterServer where
  conf : CConfigClient CGatewayConfig
  listener : Listener := .waiting
  sslCtx : Option CSSLCtx := none
  /-- What `isSSL` was for each connection, and what it became. -/
  accepted : List (Bool × Transport) := []
  /-- The configurations so far. -/
  configs : List CGatewayConfig

namespace CRouterServer

/-- The running configuration, as the getters see it. -/
def current (s : CRouterServer) : CGatewayConfig := s.conf.curServiceConfig.getD {}

def start (conf : CConfigClient CGatewayConfig) : CRouterServer where
  conf := conf
  configs := [conf.curServiceConfig.getD {}]

inductive Event where
  | downloadConfigRes (msg : List UInt8) (opened : Bool)
  /-- `listenCb`, up to the end or to the first path. -/
  | listenCb (ssl_new : Bool)
  /-- The next path is read. -/
  | getString
  /-- The paths are there. -/
  | initServer (ssl : SslCalls) (ssl_new : Bool)

def downloadConfigRes [Protobuf] (msg : List UInt8) (opened : Bool)
    (s : CRouterServer) : CRouterServer :=
  let conf := s.conf.downloadConfigRes Message.codec msg opened
  { s with conf := conf, configs := s.configs ++ [conf.curServiceConfig.getD {}] }

open CGatewayConfig (reflection) in
def step [Protobuf] (s : CRouterServer) : Event → Option CRouterServer
  | .downloadConfigRes msg opened => some (s.downloadConfigRes msg opened)
  | .listenCb ssl_new =>
    match s.listener with
    | .waiting => do
      let isSSL ← s.conf.getBool reflection "isSSL"
      if !isSSL ∨ s.sslCtx.isSome then
        some { s with accepted := s.accepted ++ [(isSSL, initBev ssl_new s.sslCtx)] }
      else some { s with listener := .isSSL }
    | _ => none
  | .getString =>
    match s.listener with
    | .isSSL => do
      let crt ← s.conf.getString reflection "crtPath"
      some { s with listener := .crtPath crt }
    | .crtPath crt => do
      let key ← s.conf.getString reflection "keyPath"
      some { s with listener := .keyPath crt key }
    | .keyPath crt key => do
      let ca ← s.conf.getString reflection "caPath"
      some { s with listener := .caPath crt key ca }
    | _ => none
  | .initServer ssl ssl_new =>
    match s.listener with
    | .caPath crt key ca =>
      let ctx := (CSSLCtx.initServer ssl (cstr crt) (cstr key) (cstr ca)).2
      some { s with
        listener := .waiting
        sslCtx := some ctx
        accepted := s.accepted ++ [(true, initBev ssl_new ctx)] }
    | _ => none

def machine [Protobuf] : Machine CRouterServer Event := ⟨step⟩

/-! ## The invariant -/

/-- The context was made for a configuration with `isSSL`, from paths that were read after it, one
after the other. -/
def Made (configs : List CGatewayConfig) (ctx : CSSLCtx) : Prop :=
  ∃ c c₁ c₂ c₃ ssl, c.isSSL = true ∧ Seen configs [c, c₁, c₂, c₃] ∧
    ctx = (CSSLCtx.initServer ssl (cstr c₁.crtPath) (cstr c₂.keyPath) (cstr c₃.caPath)).2

/-- What the listener has read so far. -/
def Reads (configs : List CGatewayConfig) : Listener → Prop
  | .waiting => True
  | .isSSL => ∃ c, c.isSSL = true ∧ Seen configs [c]
  | .crtPath crt => ∃ c c₁, c.isSSL = true ∧ Seen configs [c, c₁] ∧ crt = c₁.crtPath
  | .keyPath crt key => ∃ c c₁ c₂, c.isSSL = true ∧ Seen configs [c, c₁, c₂] ∧
      crt = c₁.crtPath ∧ key = c₂.keyPath
  | .caPath crt key ca => ∃ c c₁ c₂ c₃, c.isSSL = true ∧ Seen configs [c, c₁, c₂, c₃] ∧
      crt = c₁.crtPath ∧ key = c₂.keyPath ∧ ca = c₃.caPath

structure Inv (s : CRouterServer) : Prop where
  newest : s.configs.getLast? = some s.current
  secure : ∀ a ∈ s.accepted, a.1 = true → a.2 ≠ .socket
  plain : s.sslCtx = none → ∀ a ∈ s.accepted, a = (false, .socket)
  made : ∀ ctx ∈ s.sslCtx, Made s.configs ctx
  reads : Reads s.configs s.listener
  /-- Only the first time is a context made. -/
  first : s.listener ≠ .waiting → s.sslCtx = none

variable {conf : CConfigClient CGatewayConfig} {s t : CRouterServer}

theorem Made.grow {configs : List CGatewayConfig} {ctx : CSSLCtx} (made : Made configs ctx)
    (more : List CGatewayConfig) : Made (configs ++ more) ctx := by
  obtain ⟨c, c₁, c₂, c₃, ssl, on, seen, rfl⟩ := made
  exact ⟨c, c₁, c₂, c₃, ssl, on, seen.grow more, rfl⟩

theorem Reads.grow {configs : List CGatewayConfig} {listener : Listener}
    (reads : Reads configs listener) (more : List CGatewayConfig) :
    Reads (configs ++ more) listener := by
  cases listener with
  | waiting => trivial
  | isSSL =>
    obtain ⟨c, on, seen⟩ := reads
    exact ⟨c, on, seen.grow more⟩
  | crtPath crt =>
    obtain ⟨c, c₁, on, seen, paths⟩ := reads
    exact ⟨c, c₁, on, seen.grow more, paths⟩
  | keyPath crt key =>
    obtain ⟨c, c₁, c₂, on, seen, paths⟩ := reads
    exact ⟨c, c₁, c₂, on, seen.grow more, paths⟩
  | caPath crt key ca =>
    obtain ⟨c, c₁, c₂, c₃, on, seen, paths⟩ := reads
    exact ⟨c, c₁, c₂, c₃, on, seen.grow more, paths⟩

theorem Inv.start (conf : CConfigClient CGatewayConfig) : (start conf).Inv where
  newest := rfl
  secure _ mem := by cases mem
  plain _ _ mem := by cases mem
  made _ mem := by cases mem
  reads := trivial
  first waiting := absurd rfl waiting

/-- A connection without a new context. -/
theorem Inv.accept (inv : s.Inv) (ssl_new : Bool)
    (ready : !s.current.isSSL ∨ s.sslCtx.isSome) :
    Inv { s with accepted := s.accepted ++ [(s.current.isSSL, initBev ssl_new s.sslCtx)] } := by
  refine { inv with secure := fun a mem on => ?_, plain := fun none a mem => ?_ }
  · rcases List.mem_append.mp mem with old | new
    · exact inv.secure a old on
    · obtain rfl := List.mem_singleton.mp new
      rcases ctx : s.sslCtx with _ | ctx
      · rw [ctx] at ready
        have off : s.current.isSSL = false := by simpa using ready
        rw [off] at on
        cases on
      · exact nofun
  · rcases List.mem_append.mp mem with old | new
    · exact inv.plain none a old
    · obtain rfl := List.mem_singleton.mp new
      have none : s.sslCtx = Option.none := none
      rw [none] at ready ⊢
      have off : s.current.isSSL = false := by simpa using ready
      rw [off]
      rfl

theorem Inv.getString [Protobuf] (inv : s.Inv) (step : s.step .getString = some t) : t.Inv := by
  have reads := inv.reads
  obtain ⟨-, getCrt, getKey, getCa⟩ := CGatewayConfig.getters s.conf
  rcases listener : s.listener with _ | _ | crt | ⟨crt, key⟩ | ⟨crt, key, ca⟩
  all_goals
    rw [listener] at reads
    simp only [CRouterServer.step, listener, getCrt, getKey, getCa] at step
  case waiting | caPath => cases step
  all_goals
    obtain rfl := Option.some.inj step
    have creating := inv.first (by rw [listener]; exact nofun)
    refine { inv with reads := ?_, first := fun _ => creating }
  case isSSL =>
    obtain ⟨c, on, seen⟩ := reads
    exact ⟨c, s.current, on, seen.look inv.newest, rfl⟩
  case crtPath =>
    obtain ⟨c, c₁, on, seen, rfl⟩ := reads
    exact ⟨c, c₁, s.current, on, seen.look inv.newest, rfl, rfl⟩
  case keyPath =>
    obtain ⟨c, c₁, c₂, on, seen, rfl, rfl⟩ := reads
    exact ⟨c, c₁, c₂, s.current, on, seen.look inv.newest, rfl, rfl, rfl⟩

theorem Inv.step [Protobuf] {event : Event} (inv : s.Inv)
    (step : s.step event = some t) : t.Inv := by
  cases event with
  | downloadConfigRes msg opened =>
    obtain rfl := Option.some.inj step
    exact { inv with
      newest := List.getLast?_concat ..
      made := fun ctx there => (inv.made ctx there).grow _
      reads := inv.reads.grow _ }
  | listenCb ssl_new =>
    simp only [CRouterServer.step, (CGatewayConfig.getters s.conf).1, Option.bind_eq_bind,
      Option.bind_some] at step
    split at step
    · split at step
      next ready =>
        obtain rfl := Option.some.inj step
        exact inv.accept ssl_new ready
      next creating =>
        obtain rfl := Option.some.inj step
        rw [not_or, Bool.not_eq_true, Bool.not_eq_false', Bool.not_eq_true,
          Option.isSome_eq_false_iff, Option.isNone_iff_eq_none] at creating
        refine { inv with reads := ⟨s.current, creating.1, ?_⟩, first := fun _ => creating.2 }
        exact (Seen.nil s.configs).look inv.newest
    · cases step
  | getString => exact inv.getString step
  | initServer ssl ssl_new =>
    have reads := inv.reads
    simp only [CRouterServer.step] at step
    split at step
    next crt key ca listener =>
      obtain rfl := Option.some.inj step
      rw [listener] at reads
      obtain ⟨c, c₁, c₂, c₃, on, seen, rfl, rfl, rfl⟩ := reads
      refine ⟨inv.newest, fun a mem isSSL => ?_, nofun, fun ctx there => ?_, trivial,
        fun waiting => absurd rfl waiting⟩
      · rcases List.mem_append.mp mem with old | new
        · exact inv.secure a old isSSL
        · obtain rfl := List.mem_singleton.mp new
          exact nofun
      · obtain rfl := Option.some.inj there
        exact ⟨c, c₁, c₂, c₃, ssl, on, seen, rfl⟩
    · cases step

/-- With its context the gateway takes TLS connections only, and all with this context. -/
def SecureSince (accepted : List (Bool × Transport)) (ctx : CSSLCtx) (s : CRouterServer) : Prop :=
  s.sslCtx = some ctx ∧ s.listener = .waiting ∧ ∃ more, s.accepted = accepted ++ more ∧
    ∀ a ∈ more, ∃ ssl_new, a.2 = .openssl (ctx.newCSSL ssl_new)

theorem SecureSince.step [Protobuf] {accepted : List (Bool × Transport)} {ctx : CSSLCtx}
    {event : Event} (secure : s.SecureSince accepted ctx) (step : s.step event = some t) :
    t.SecureSince accepted ctx := by
  obtain ⟨there, waiting, more, whole, each⟩ := secure
  cases event with
  | downloadConfigRes msg opened =>
    obtain rfl := Option.some.inj step
    exact ⟨there, waiting, more, whole, each⟩
  | listenCb ssl_new =>
    simp only [CRouterServer.step, waiting, (CGatewayConfig.getters s.conf).1, there,
      Option.bind_eq_bind, Option.bind_some, Option.isSome_some, or_true, if_true] at step
    obtain rfl := Option.some.inj step
    refine ⟨rfl, rfl, more ++ [(s.current.isSSL, initBev ssl_new ctx)], ?_, fun a mem => ?_⟩
    · rw [whole, List.append_assoc]
      rfl
    · rcases List.mem_append.mp mem with old | new
      · exact each a old
      · obtain rfl := List.mem_singleton.mp new
        exact ⟨ssl_new, rfl⟩
  | _ => simp [CRouterServer.step, waiting] at step

/-- No connection for which `isSSL` was on is plain. Up to the first of them all are plain; its
context was made from configurations that the gateway had, and from then on, whatever the files
were and whatever configurations come, all connections are TLS with it. -/
theorem tls_for_good [Protobuf] {events : List Event}
    (reached : machine.run (start conf) events = some s) :
    (∀ a ∈ s.accepted, a.1 = true → a.2 ≠ .socket) ∧
    (s.sslCtx = none → ∀ a ∈ s.accepted, a = (false, .socket)) ∧
    ∀ ctx, s.sslCtx = some ctx → Made s.configs ctx ∧
      ∀ later t, machine.run s later = some t → t.sslCtx = some ctx ∧
        ∃ more, t.accepted = s.accepted ++ more ∧
          ∀ a ∈ more, ∃ ssl_new, a.2 = .openssl (ctx.newCSSL ssl_new) := by
  have inv := machine.run_invariant_always (I := Inv)
    (fun _ _ _ inv _ step => inv.step step) (.start conf) reached
  refine ⟨inv.secure, inv.plain, fun ctx there => ⟨inv.made ctx there, fun later t run => ?_⟩⟩
  have waiting : s.listener = .waiting := by
    by_contra creating
    rw [inv.first creating] at there
    cases there
  have since := machine.run_invariant_always (I := SecureSince s.accepted ctx)
    (fun _ _ _ secure _ step => secure.step step)
    ⟨there, waiting, [], (List.append_nil _).symm, nofun⟩ run
  exact ⟨since.1, since.2.2⟩

/-! ## A configuration that comes in between -/

/-- The gateway has port 6500 and a configuration in its file. -/
def gateway : CConfigClient CGatewayConfig where
  localPort := 6500
  curServiceConfig := some { isSSL := true, crtPath := "a.crt", keyPath := "a.key" }

def newFiles : List UInt8 :=
  Message.serialize
    { serviceIp := "10.0.0.5", servicePort := 6500,
      privatePb := Message.serialize
        ({ crtPath := "b.crt", keyPath := "b.key" } : CGatewayConfig) : CConfig }

/-- New files come, and TLS is switched off, while the first connection is accepted. The gateway
tries the old certificate with the new key, and what comes of it is for all connections. -/
def newFilesInBetween : List CRouterServer.Event :=
  [.listenCb true, .getString, .downloadConfigRes newFiles true, .getString, .getString,
    .initServer { check_private_key := false } true, .listenCb true]

open Library.Wire.Reader

theorem tls_for_good_newFiles : ∃ s ctx,
    machine.run (start gateway) newFilesInBetween = some s ∧ s.sslCtx = some ctx ∧
      ctx.sslCtx = some { certificate := some "a.crt", privateKey := some "b.key" } ∧
      s.current.isSSL = false ∧ Made s.configs ctx := by
  have trace : (machine.run (start gateway) newFilesInBetween).map (fun s =>
      (s.sslCtx, s.current.isSSL, s.accepted.length)) =
      some (some ⟨some { certificate := some "a.crt", privateKey := some "b.key" }⟩, false, 2) := by
    decide +kernel
  obtain ⟨s, reached, trace⟩ := Option.map_eq_some_iff.mp trace
  simp only [Prod.mk.injEq] at trace
  obtain ⟨there, off, -⟩ := trace
  exact ⟨s, _, reached, there, rfl, off, ((tls_for_good reached).2.2 _ there).1⟩

end CRouterServer

end MicroserviceFramework.Gateway
