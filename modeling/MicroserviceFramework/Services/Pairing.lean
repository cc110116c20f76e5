import MicroserviceFramework.Register.Registry
import MicroserviceFramework.Services.Handlers

/-!
# Requests and responses

A request that can be parsed gets one reply, of the type that belongs to it and with the message
that the type declares. The exception is a deletion that fails: its reply has the type of a
downloaded configuration, which a client parses as one.
-/

namespace MicroserviceFramework.Services

open Library.Wire Platform CMsgType
open Auth (cstr)
open Config (ConfigDAO)

namespace Handler

/-- There is one reply, of the type declared for the request, and the message in it is the one
that a response of this type is parsed as. -/
def Paired (h : Handler) (replies : Replies) : Prop :=
  ∃ head message, replies = [(head, message)] ∧ head.msgType = h.resType ∧
    declared head.msgType = some message.kind

/-- A request for a deletion is for an address and a port that are valid, and the statement
succeeds. -/
def Deletes [Protobuf] (env : Env) (msg : CMsg) (s : State) : Handler → Prop
  | deleteConfig =>
    let req := (Message.parse (M := CDownloadconfigReq) msg.bytes).2
    s.dao.mysql = true ∧ ConfigDAO.InRange (cstr req.serviceIp) req.servicePort ∧
      env.config.delete = true
  | _ => True

theorem paired_singleton {h : Handler} {reply : CMsgHead × Payload}
    (type : reply.1.msgType = h.resType) (kind : reply.2.kind = h.resMessage) :
    h.Paired [reply] :=
  ⟨reply.1, reply.2, rfl, type, by rw [type, kind, h.declared_resType]⟩

theorem exists_parsed {M : Type} {result : Bool × M} (parses : result.1 = true) :
    ∃ message, result = (true, message) :=
  ⟨result.2, Prod.ext parses rfl⟩

theorem deleteConfig_ok_iff (o : Config.Outcome) (collation : Config.Collation) (ip : String)
    (port : Int32) (dao : ConfigDAO) : (dao.deleteConfig collation o ip port).1 = true ↔
      dao.mysql = true ∧ ConfigDAO.InRange ip port ∧ o.delete = true := by
  unfold ConfigDAO.deleteConfig
  grind

theorem login_done (o : Auth.Outcomes) (db : Auth.AuthDb) (req : Auth.CLoginReq) :
    ∃ db' ret res row, Auth.login 1800 o db req {} = (db', .done ret res row) := by
  rcases Auth.login_cases 1800 o db req {} with
    ⟨-, ended⟩ | ⟨-, db', res', row', ended, -⟩ | ⟨-, answer, -, db', res', row', -, ended, -⟩
  · exact ⟨_, _, _, _, ended⟩
  · exact ⟨_, _, _, _, ended⟩
  · exact ⟨_, _, _, _, ended⟩

section

variable [Protobuf] {env : Env} {head : CMsgHead} {msg : CMsg} {s : State}

theorem loginReq_reply (o : Auth.Outcomes) (db : Auth.AuthDb) (head : CMsgHead) {msg : CMsg}
    (parses : (Message.parse (M := Auth.CLoginReq) msg.bytes).1 = true) :
    ∃ res, (Auth.loginReq o db head msg).2 = some ({ head with msgType := MSG_LOGIN_RES }, res) := by
  rcases parsed : (Message.parse msg.bytes : Bool × Auth.CLoginReq) with ⟨readable, req⟩
  obtain rfl : readable = true := by
    rw [parsed] at parses
    exact parses
  obtain ⟨db', ret, res, row, ended⟩ := login_done o db req
  refine ⟨res, ?_⟩
  simp only [Auth.loginReq, parsed, ended]

theorem registerReq_reply (clientIp : String) (msg : List UInt8) (m : Option CServiceMap) :
    ∃ res, (Register.CRegisterHandle.registerReq clientIp msg m).2 =
      some (sendMsg MSG_REGISTER_RES res) := by
  rcases Register.CRegisterHandle.registerReq_cases clientIp msg m with
    ⟨text, refused, -⟩ | ⟨req, -, -, ok, -⟩
  · exact ⟨_, refused⟩
  · exact ⟨_, ok⟩

theorem addUserReq_reply (o : Auth.Outcome) (db : Auth.AuthDb) (msg : List UInt8) :
    ∃ res, (Auth.addUserReq o db msg).2 = some (sendMsg MSG_ADD_USER_RES res) := by
  unfold Auth.addUserReq
  split
  · exact ⟨_, rfl⟩
  · split <;> exact ⟨_, rfl⟩

theorem uploadConfig_reply (collation : Config.Collation) (o : Config.Outcome) (clientIp : String)
    (msg : List UInt8) (dao : ConfigDAO) :
    ∃ res, (Config.CConfigHandle.uploadConfig collation o clientIp msg dao).2 =
      some (sendMsg MSG_UPLOAD_CONFIG_RES res) := by
  unfold Config.CConfigHandle.uploadConfig
  split
  · exact ⟨_, rfl⟩
  · split <;> exact ⟨_, rfl⟩

theorem getServiceReq_reply (msg : List UInt8) (m : Option CServiceMap) :
    ∃ map, (Register.CRegisterHandle.getServiceReq msg m).2 =
      some (sendMsg MSG_GET_SERVICE_RES map) := by
  unfold Register.CRegisterHandle.getServiceReq
  split
  · exact ⟨_, rfl⟩
  · dsimp only
    split <;> exact ⟨_, rfl⟩

theorem deleteConfig_reply (collation : Config.Collation) (o : Config.Outcome) {msg : List UInt8}
    (dao : ConfigDAO) {req : CDownloadconfigReq} (parsed : Message.parse msg = (true, req)) :
    ∃ res, (Config.CConfigHandle.deleteConfig collation o msg dao).2 = some (sendMsg
      (if (dao.deleteConfig collation o (cstr req.serviceIp) req.servicePort).1 then
        MSG_DELETE_CONFIG_RES else MSG_DOWNLOAD_CONFIG_RES) res) := by
  rcases deleted : dao.deleteConfig collation o (cstr req.serviceIp) req.servicePort with ⟨ok, dao'⟩
  cases ok <;> simp only [Config.CConfigHandle.deleteConfig, parsed, deleted] <;> exact ⟨_, rfl⟩

/-- A request gets its one reply, of its type, exactly if it is not for a deletion that fails. -/
theorem paired_iff {h : Handler} (service : h ≠ dirReqCb) (parses : h.parses msg = true) :
    h.Paired (h.run env head msg s).2 ↔ h.Deletes env msg s := by
  cases h with
  | dirReqCb => exact absurd rfl service
  | loginReq =>
    obtain ⟨res, reply⟩ := loginReq_reply env.login s.authDb head parses
    refine iff_of_true ?_ trivial
    rw [run, result_replies, reply]
    exact paired_singleton rfl rfl
  | addUserReq =>
    obtain ⟨res, reply⟩ := addUserReq_reply env.addUser s.authDb msg.bytes
    refine iff_of_true ?_ trivial
    rw [run, result_replies, reply]
    exact paired_singleton rfl rfl
  | uploadConfig =>
    obtain ⟨res, reply⟩ := uploadConfig_reply env.collation env.config env.clientIp msg.bytes s.dao
    refine iff_of_true ?_ trivial
    rw [run, result_replies, reply]
    exact paired_singleton rfl rfl
  | downloadConfig =>
    obtain ⟨req, parsed⟩ := exists_parsed parses
    refine iff_of_true ?_ trivial
    rw [run, Config.CConfigHandle.downloadConfig, parsed]
    exact paired_singleton rfl rfl
  | downloadAllConfig =>
    obtain ⟨req, parsed⟩ := exists_parsed parses
    refine iff_of_true ?_ trivial
    rw [run, Config.CConfigHandle.downloadAllConfig, parsed]
    exact paired_singleton rfl rfl
  | deleteConfig =>
    obtain ⟨req, parsed⟩ := exists_parsed parses
    obtain ⟨res, reply⟩ := deleteConfig_reply env.collation env.config s.dao parsed
    rw [run, result_replies, reply, Deletes, parsed, ← deleteConfig_ok_iff env.config env.collation]
    cases (s.dao.deleteConfig env.collation env.config (cstr req.serviceIp) req.servicePort).1 with
    | true => exact iff_of_true (paired_singleton rfl rfl) rfl
    | false =>
      refine iff_of_false ?_ Bool.false_ne_true
      rintro ⟨head, message, sent, type, -⟩
      obtain ⟨rfl, -⟩ := Prod.mk.inj (List.cons.inj sent).1
      -- it has the type of the reply to a download
      exact absurd (@resType_injective downloadConfig _ type) (by decide)
  | registerReq =>
    obtain ⟨res, reply⟩ := registerReq_reply env.clientIp msg.bytes s.serviceMap
    refine iff_of_true ?_ trivial
    rw [run, result_replies, reply]
    exact paired_singleton rfl rfl
  | getServiceReq =>
    obtain ⟨res, reply⟩ := getServiceReq_reply msg.bytes s.serviceMap
    refine iff_of_true ?_ trivial
    rw [run, result_replies, reply]
    exact paired_singleton rfl rfl

end

open Library.Wire.Reader

/-- A request to delete the configuration of one service. -/
def deletion : CMsg :=
  .ofBytes (Message.serialize ({ servicePort := 80, serviceIp := "10.0.0.1" } : CDownloadconfigReq))

/-- The statement succeeds. -/
theorem deletion_paired :
    deleteConfig ≠ dirReqCb ∧ parses deletion deleteConfig = true ∧
      (deleteConfig.Paired (run {} {} deletion {} deleteConfig).2 ↔
        deleteConfig.Deletes {} deletion {}) := by
  have parsed : parses deletion deleteConfig = true := by decide +kernel
  exact ⟨by decide, parsed, paired_iff (by decide) parsed⟩

/-- The statement fails, and the reply has the type of a downloaded configuration. -/
theorem deletion_not_paired :
    parses deletion deleteConfig = true ∧
      ¬deleteConfig.Paired (run { config := { delete := false } } {} deletion {} deleteConfig).2 := by
  refine ⟨by decide +kernel, ?_⟩
  have replies : (run { config := { delete := false } } {} deletion {} deleteConfig).2 =
      [({ msgType := MSG_DOWNLOAD_CONFIG_RES },
        .messageRes ⟨.ERROR, Kind.utf8 "ConfigDAO::get()->deleteConfig failed!"⟩)] := by decide +kernel
  rintro ⟨head, message, sent, type, -⟩
  rw [replies] at sent
  obtain ⟨rfl, -⟩ := Prod.mk.inj (List.cons.inj sent).1
  exact absurd type (by decide)

end Handler

end MicroserviceFramework.Services
