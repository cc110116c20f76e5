import MicroserviceFramework.Config.CConfigHandle
import MicroserviceFramework.Config.UniqueRows

/-!
# A service that downloads its configuration

`CConfigClient` asks for the configuration of its own service again and again. The answer is
always a `CConfig`; the service's own configuration, a message of a type of its own, is serialised
in it. It is kept in memory and in a file.
-/

namespace MicroserviceFramework.Config

open Library Library.Wire Platform
open Auth (cstr cstr_eq_self Plain)

/-- `ip:port`. -/
def keyOf (ip : String) (port : Int) : String := ip ++ ":" ++ port.repr

/-- The last colon ends the address. -/
theorem keyOf_inj {ip ip' : String} {port port' : Int} (same : keyOf ip port = keyOf ip' port') :
    ip = ip' ∧ port = port' := by
  have colon (n : Int) : ':' ∉ n.repr.toList := by
    intro mem
    rcases mem_repr mem with digit | sign
    · exact absurd digit (by decide)
    · exact absurd sign (by decide)
  have lists : ip.toList ++ ':' :: port.repr.toList = ip'.toList ++ ':' :: port'.repr.toList := by
    have text := congrArg String.toList same
    simpa [keyOf] using text
  have number (same : port.repr.toList = port'.repr.toList) : port = port' := by
    obtain ⟨tokens, lexed, read⟩ := lexFrom_repr port
    obtain ⟨tokens', lexed', read'⟩ := lexFrom_repr port'
    rw [same, lexed', Option.some.injEq] at lexed
    rw [← lexed, read', Option.some.injEq] at read
    exact read.symm
  have lengths : ip.toList.length = ip'.toList.length := by
    rcases List.append_eq_append_iff.mp lists with ⟨more, split, rest⟩ | ⟨more, split, rest⟩
    · cases more with
      | nil => simp [split]
      | cons d ds =>
        obtain ⟨-, rest⟩ := List.cons.inj rest
        exact absurd (show ':' ∈ port.repr.toList by rw [rest]; simp) (colon _)
    · cases more with
      | nil => simp [split]
      | cons d ds =>
        obtain ⟨-, rest⟩ := List.cons.inj rest
        exact absurd (show ':' ∈ port'.repr.toList by rw [rest]; simp) (colon _)
  obtain ⟨ips, ports⟩ := List.append_inj lists lengths
  exact ⟨String.toList_inj.mp ips, number (List.cons.inj ports).2⟩

/-- `M` is the type of the service's configuration. -/
structure CConfigClient (M : Type) where
  localIp : String := ""
  localPort : Int32 := 0
  configMap : String → Option CConfig := fun _ => none
  curServiceConfig : Option M := none
  /-- The file `<localPort>_conf.cache`. -/
  cache : Option (List UInt8) := none

namespace CConfigClient

variable [Protobuf] {M : Type} (codec : Codec M)

/-- The body of the request, if one is sent. -/
def downloadConfig (ip : String) (port : Int32) : Option (List UInt8) :=
  if port ≤ 0 ∨ 65536 ≤ port then none
  else some (Message.serialize { serviceIp := ip, servicePort := port : CDownloadconfigReq })

def timerCb (c : CConfigClient M) : Option (List UInt8) :=
  if 0 < c.localPort then downloadConfig c.localIp c.localPort else none

/-- `opened` is whether the file can be written. A failed parse leaves its contents in
`curServiceConfig`. -/
def downloadConfigRes (msg : List UInt8) (opened : Bool) (c : CConfigClient M) : CConfigClient M :=
  match Message.parse (M := CConfig) msg with
  | (false, _) => c
  | (true, conf) =>
    let key := keyOf conf.serviceIp conf.servicePort.toInt
    let c := { c with configMap := Function.update c.configMap key (some conf) }
    if c.localPort ≤ 0 ∨ c.curServiceConfig.isNone then c
    else
      let ip := if c.localIp = "" then conf.serviceIp else c.localIp
      if key ≠ keyOf ip c.localPort.toInt then c
      else
        match codec.parse conf.privatePb with
        | (false, m) => { c with curServiceConfig := some m }
        | (true, m) =>
          let c := { c with curServiceConfig := some m }
          if opened then { c with cache := some (codec.serialize m) } else c

/-- The key that `downloadConfigRes` takes for the service's own. -/
def OwnKey (conf : CConfig) (c : CConfigClient M) : Prop :=
  keyOf conf.serviceIp conf.servicePort.toInt =
    keyOf (if c.localIp = "" then conf.serviceIp else c.localIp) c.localPort.toInt

instance (conf : CConfig) (c : CConfigClient M) : Decidable (OwnKey conf c) :=
  inferInstanceAs (Decidable (_ = _))

/-- It looks every 10 ms; `clients i` is the client at the `i`-th look. -/
def getConfig (ip : String) (port timeoutMs : Int) (clients : Nat → CConfigClient M) :
    Option CConfig :=
  (List.range (timeoutMs.tdiv 10).toNat).findSome? fun i => (clients i).configMap (keyOf ip port)

omit [Protobuf] in
/-- What it finds is an entry of `configMap` at one of its looks. -/
theorem getConfig_found {ip : String} {port timeoutMs : Int} {clients : Nat → CConfigClient M}
    {conf : CConfig} (found : getConfig ip port timeoutMs clients = some conf) :
    ∃ i, (clients i).configMap (keyOf ip port) = some conf := by
  obtain ⟨i, -, entry⟩ := List.exists_of_findSome?_eq_some found
  exact ⟨i, entry⟩

theorem downloadConfigRes_address (c : CConfigClient M) (msg : List UInt8) (opened : Bool) :
    (c.downloadConfigRes codec msg opened).localIp = c.localIp ∧
      (c.downloadConfigRes codec msg opened).localPort = c.localPort := by
  unfold downloadConfigRes
  dsimp only
  repeat' split
  all_goals exact ⟨rfl, rfl⟩

/-- Every answer is entered under its own key. -/
theorem downloadConfigRes_configMap (c : CConfigClient M) {msg : List UInt8} {conf : CConfig}
    (parsed : Message.parse msg = (true, conf)) (opened : Bool) :
    (c.downloadConfigRes codec msg opened).configMap =
      Function.update c.configMap (keyOf conf.serviceIp conf.servicePort.toInt) (some conf) := by
  unfold downloadConfigRes
  rw [parsed]
  dsimp only
  repeat' split
  all_goals rfl

/-- An answer is kept only if it has the key of the service. -/
theorem downloadConfigRes_cases (c : CConfigClient M) {msg : List UInt8} {conf : CConfig}
    (parsed : Message.parse msg = (true, conf)) (opened : Bool) :
    let c' := c.downloadConfigRes codec msg opened
    (c'.curServiceConfig = c.curServiceConfig ∧ c'.cache = c.cache) ∨
    (c.curServiceConfig.isSome ∧ conf.servicePort = c.localPort ∧
      (c.localIp ≠ "" → conf.serviceIp = c.localIp) ∧
      c'.curServiceConfig = some (codec.parse conf.privatePb).2 ∧
      ((codec.parse conf.privatePb).1 = true →
        c'.cache = c.cache ∨ c'.cache = some (codec.serialize (codec.parse conf.privatePb).2))) := by
  intro c'
  have step : c' = c.downloadConfigRes codec msg opened := rfl
  unfold downloadConfigRes at step
  simp only [parsed] at step
  split at step
  next => exact .inl (by simp [step])
  next wanted =>
    rw [not_or, Option.isNone_iff_eq_none, ← Ne, Option.ne_none_iff_isSome] at wanted
    by_cases other : keyOf conf.serviceIp conf.servicePort.toInt ≠
        keyOf (if c.localIp = "" then conf.serviceIp else c.localIp) c.localPort.toInt
    · rw [if_pos other] at step
      exact .inl (by simp [step])
    · rw [if_neg other] at step
      obtain ⟨ip, port⟩ := keyOf_inj (not_not.mp other)
      refine .inr ⟨wanted.2, Int32.toInt_inj.mp port, fun own => by simpa [own] using ip, ?_⟩
      rcases read : codec.parse conf.privatePb with ⟨ok, m⟩
      rw [read] at step
      cases ok with
      | false => exact ⟨by simp [step], by simp⟩
      | true =>
        cases opened with
        | false => exact ⟨by simp [step], fun _ => .inl (by simp [step])⟩
        | true => exact ⟨by simp [step], fun _ => .inr (by simp [step])⟩

end CConfigClient

/-! ## Requests of the timer -/

/-- The rows were uploaded. -/
def Uploaded (dao : ConfigDAO) : Prop :=
  ∀ row ∈ dao.rows, ∃ conf, row = .ofConfig conf ∧ (Message.serialize conf).length < 2 ^ 31

/-- A state of the config centre. -/
structure Server where
  dao : ConfigDAO := {}
  uploaded : Uploaded dao

/-- An uploaded configuration is within protobuf's limit. -/
def Call.Fits : Call → Prop
  | upload conf _ => (Message.serialize conf).length < 2 ^ 31
  | delete .. => True

theorem Uploaded.call (collation : Collation) {dao : ConfigDAO} (uploaded : Uploaded dao)
    {call : Call} (fits : call.Fits) : Uploaded (call.run collation dao) := by
  cases call with
  | upload conf o =>
    have new : ∃ c, ConfigRow.ofConfig conf = .ofConfig c ∧
        (Message.serialize c).length < 2 ^ 31 := ⟨conf, rfl, fits⟩
    simp only [Call.run, ConfigDAO.uploadConfig, ConfigDAO.updateBin, ConfigDAO.insertBin]
    repeat' split
    all_goals first | exact uploaded | skip
    · intro row mem
      obtain ⟨old, was, rfl⟩ := List.mem_map.mp mem
      split
      · exact new
      · exact uploaded old was
    · intro row mem
      rcases List.mem_append.mp mem with old | own
      · exact uploaded row old
      · exact List.mem_singleton.mp own ▸ new
  | delete ip port o =>
    simp only [Call.run, ConfigDAO.deleteConfig]
    repeat' split
    all_goals first | exact uploaded | skip
    intro row mem
    exact uploaded row (List.mem_filter.mp mem).1

/-- The config centre after a call. -/
def Server.call (collation : Collation) (server : Server) (call : Call) (fits : call.Fits) : Server :=
  ⟨call.run collation server.dao, server.uploaded.call collation fits⟩

/-- One request of the timer, with the state in which it finds the config centre. The address of
the client is that of its socket. -/
structure Exchange where
  server : Server
  o : Outcome := {}
  clientIp : String
  plain : Plain clientIp
  opened : Bool := true

namespace Exchange

section

variable [Protobuf] {M : Type} (collation : Collation) (codec : Codec M)

/-- The answer, if the request is sent and answered; larger bodies are refused on arrival. -/
def answer (e : Exchange) (c : CConfigClient M) : Option (List UInt8) :=
  match c.timerCb with
  | none => none
  | some req =>
    if maxMsgSize < req.length then none
    else
      match CConfigHandle.downloadConfig collation e.o e.clientIp req e.server.dao with
      | none => none
      | some (_, conf) =>
        let body := Message.serialize conf
        if maxMsgSize < body.length then none else some body

def run (e : Exchange) (c : CConfigClient M) : CConfigClient M :=
  match e.answer collation c with
  | none => c
  | some msg => c.downloadConfigRes codec msg e.opened

def machine : Machine (CConfigClient M) Exchange where
  step c e := some (e.run collation codec c)

/-- The address of the service, which the config centre fills in when it is not configured. -/
def ip (e : Exchange) (c : CConfigClient M) : String := CConfigHandle.fillIp e.clientIp c.localIp

/-- The configuration is in the table, for the address and port of the service. -/
def Stores (e : Exchange) (c : CConfigClient M) (conf : CConfig) : Prop :=
  .ofConfig conf ∈ e.server.dao.rows ∧ conf.servicePort = c.localPort ∧
    (conf.serviceIp = e.ip c ∨ collation.same (cstr conf.serviceIp) (e.ip c))

/-- The configuration in memory and that in the file are as they were, or come from one that is
stored for the service. -/
def KeptOrStored (c : CConfigClient M) (e : Exchange) : Prop :=
  let c' := e.run collation codec c
  (c'.curServiceConfig = c.curServiceConfig ∧ c'.cache = c.cache) ∨
    ∃ conf m, e.Stores collation c conf ∧ codec.parse conf.privatePb = (true, m) ∧
      c'.curServiceConfig = some m ∧ (c'.cache = c.cache ∨ c'.cache = some (codec.serialize m))

/-- If there is a configuration to lose and the config centre looks for the service's row, it finds
one, and what is stored there is a configuration of the service's type. -/
def Found (c : CConfigClient M) (e : Exchange) : Prop :=
  c.curServiceConfig.isSome → e.server.dao.mysql →
    (e.o.select ∧ ∃ row ∈ e.server.dao.rows, e.o.selects collation .selectPrivatePb
      (cstr (Statement.selectPrivatePb.text ++ whereSql (cstr (e.ip c)) c.localPort)) row) ∧
    ∀ conf, e.Stores collation c conf → (codec.parse conf.privatePb).1 = true

variable {collation codec}

omit [Protobuf] in
theorem timerCb_inv {c : CConfigClient M} {req : List UInt8} (sent : c.timerCb = some req) :
    0 < c.localPort ∧ Message.serialize
      { serviceIp := c.localIp, servicePort := c.localPort : CDownloadconfigReq } = req := by
  unfold CConfigClient.timerCb CConfigClient.downloadConfig at sent
  split at sent
  next pos =>
    split at sent
    · cases sent
    · exact ⟨pos, Option.some.inj sent⟩
  next => cases sent

/-- What is answered is what the config centre has for the service. -/
theorem answer_inv {c : CConfigClient M} {e : Exchange} {msg : List UInt8}
    (answered : e.answer collation c = some msg) :
    0 < c.localPort ∧ Message.parse msg =
      (true, e.server.dao.downloadConfig collation e.o (cstr (e.ip c)) c.localPort) := by
  unfold answer at answered
  split at answered
  · cases answered
  next req sent =>
    split at answered
    · cases answered
    next small =>
      split at answered
      · cases answered
      next head conf handled =>
        dsimp only at answered
        split at answered
        · cases answered
        next short =>
          unfold maxMsgSize at small short
          obtain rfl := Option.some.inj answered
          obtain ⟨pos, rfl⟩ := timerCb_inv sent
          rw [CConfigHandle.downloadConfig, Message.parse_serialize (by omega)] at handled
          obtain ⟨rfl, rfl⟩ := Prod.mk.inj (Option.some.inj handled)
          exact ⟨pos, Message.parse_serialize (by omega)⟩

/-- When there is a row to be found, the answer is empty or a configuration of the service. -/
theorem answer_stored {c : CConfigClient M} {e : Exchange} (current : c.curServiceConfig.isSome)
    (found : e.Found collation codec c) :
    let conf := e.server.dao.downloadConfig collation e.o (cstr (e.ip c)) c.localPort
    conf = {} ∨ e.server.dao.mysql ∧ .ofConfig conf ∈ e.server.dao.rows ∧
      (c.localIp = "" → collation.same (cstr conf.serviceIp) (e.ip c)) := by
  intro conf
  rcases e.server.dao.downloadConfig_cases collation e.o (cstr (e.ip c)) c.localPort with
    empty | ⟨mysql, none_found | ⟨row, mem, selected, answer⟩⟩
  · exact .inl empty
  · obtain ⟨⟨select, row, mem, selected⟩, -⟩ := found current mysql
    rw [ConfigDAO.getResult, if_pos select, List.filter_eq_nil_iff] at none_found
    exact absurd selected (none_found row mem)
  · refine .inr ?_
    obtain ⟨stored, rfl, fits⟩ := e.server.uploaded row mem
    have same : conf = stored := by
      refine answer.trans ?_
      rw [ConfigRow.ofConfig, Message.parse_serialize fits]
    rw [same]
    refine ⟨mysql, mem, fun own => ?_⟩
    have address : e.ip c = e.clientIp := by simp [Exchange.ip, CConfigHandle.fillIp, own]
    rw [address, cstr_eq_self e.plain.1, cstr_whereSql _ e.plain,
      Outcome.selects_plain collation e.o e.plain] at selected
    rw [address]
    exact (ConfigRow.isOf_iff.mp selected).1

/-- A step that finds what it looks for keeps or stores. -/
theorem keptOrStored {c : CConfigClient M} {e : Exchange} (found : e.Found collation codec c) :
    e.KeptOrStored collation codec c := by
  unfold KeptOrStored run
  cases answered : e.answer collation c with
  | none => exact .inl ⟨rfl, rfl⟩
  | some msg =>
    obtain ⟨pos, parsed⟩ := answer_inv answered
    rcases c.downloadConfigRes_cases codec parsed e.opened with kept | ⟨current, port, ip, new, file⟩
    · exact .inl kept
    rcases answer_stored current found with empty | ⟨mysql, mem, own⟩
    · -- the port of an empty answer is no service's
      rw [empty] at port
      exact absurd (port ▸ pos) (by decide)
    · have stores : e.Stores collation c
          (e.server.dao.downloadConfig collation e.o (cstr (e.ip c)) c.localPort) := by
        refine ⟨mem, port, ?_⟩
        by_cases empty : c.localIp = ""
        · exact .inr (own empty)
        · exact .inl ((ip empty).trans (by simp [Exchange.ip, CConfigHandle.fillIp, empty]))
      have parses := (found current mysql).2 _ stores
      exact .inr ⟨_, _, stores, Prod.ext parses rfl, new, file parses⟩

/-- In every run in which each request finds the row of the service, and a configuration of its
type there, each answer leaves memory and file as they were or fills them from what is stored. -/
theorem kept_or_stored {c : CConfigClient M} {run : List Exchange}
    (found : (machine collation codec).Along (fun c e => e.Found collation codec c) c run) :
    (machine collation codec).Along (fun c e => e.KeptOrStored collation codec c) c run :=
  Machine.Along.imp _ (fun _ _ => keptOrStored) found

end

/-! ## The directory service -/

section Directory

open Library.Wire.Reader

/-- The directory service on port 80 of 10.0.0.1, with a configuration from before. -/
def directory : CConfigClient CDirConfig where
  localIp := "10.0.0.1"
  localPort := 80
  curServiceConfig := some { root := "/old" }

def directoryConfig : CConfig where
  serviceIp := "10.0.0.1"
  servicePort := 80
  privatePb := Message.serialize { root := "/new" : CDirConfig }

/-- A request to a config centre with these rows. -/
def request (dao : ConfigDAO) (uploaded : Uploaded dao) : Exchange where
  server := ⟨dao, uploaded⟩
  clientIp := "10.0.0.1"
  plain := by decide

theorem uploaded_directory : Uploaded { rows := [.ofConfig directoryConfig] } := by
  intro row mem
  exact ⟨directoryConfig, List.mem_singleton.mp mem, by decide⟩

theorem uploaded_empty : Uploaded {} := by
  intro row mem
  cases mem

theorem kept_or_stored_directory :
    (machine .exact Message.codec).Along (fun c e => e.KeptOrStored .exact Message.codec c) directory
      [request _ uploaded_directory] := by
  refine kept_or_stored ⟨fun _ _ => ⟨by decide +kernel, fun conf stores => ?_⟩, fun _ _ => trivial⟩
  have same := congrArg ConfigRow.private_pb (List.mem_singleton.mp stores.1)
  change Message.serialize conf = Message.serialize directoryConfig at same
  have short : (Message.serialize directoryConfig).length < 2 ^ 31 := by decide
  have read := Message.parse_serialize (m := conf) (same ▸ short)
  rw [same, Message.parse_serialize short] at read
  obtain rfl := (Prod.mk.inj read).2
  decide

/-- There is no row for the service, and what it had is gone. -/
theorem configuration_lost :
    ((request {} uploaded_empty).run .exact Message.codec directory).curServiceConfig =
        some { root := "" } ∧
      ((request {} uploaded_empty).run .exact Message.codec directory).cache = some [] ∧
      ¬(machine .exact Message.codec).Along (fun c e => e.KeptOrStored .exact Message.codec c)
        directory [request {} uploaded_empty] := by
  have lost : ((request {} uploaded_empty).run .exact Message.codec directory).curServiceConfig =
      some { root := "" } := by decide +kernel
  refine ⟨lost, by decide +kernel, fun along => ?_⟩
  rcases along.1 with kept | ⟨conf, m, stores, -⟩
  · rw [lost] at kept
    exact absurd kept.1 (by decide)
  · cases stores.1

end Directory

end Exchange

end MicroserviceFramework.Config
