import MicroserviceFramework.Config.ConfigDAO

/-!
# Requests to the config centre

The handlers of `CConfigHandle`, on the body of a request and the address of the client that sent
it. A handler gives the header and the message that it sends, if it sends one. The header of a
request is not used: every response goes with a new one, by `sendMsg(type, message)`.
-/

namespace MicroserviceFramework.Config

open Library.Wire Platform CMsgType
open Auth (cstr)

namespace CConfigHandle

variable [Protobuf] (collation : Collation) (o : Outcome) (clientIp : String) (msg : List UInt8)
  (dao : ConfigDAO)

/-- The address of the client, where the request leaves it out. -/
def fillIp (ip : String) : String := if ip = "" then clientIp else ip

def uploadConfig : ConfigDAO × Option (CMsgHead × CMessageRes) :=
  match Message.parse (M := CConfig) msg with
  | (false, _) => (dao, some (sendMsg MSG_UPLOAD_CONFIG_RES ⟨.ERROR, Kind.utf8 "format error!"⟩))
  | (true, conf) =>
    match dao.uploadConfig collation o { conf with serviceIp := fillIp clientIp conf.serviceIp } with
    | (true, dao) => (dao, some (sendMsg MSG_UPLOAD_CONFIG_RES ⟨.OK, Kind.utf8 "OK"⟩))
    | (false, dao) =>
      (dao, some (sendMsg MSG_UPLOAD_CONFIG_RES ⟨.ERROR, Kind.utf8 "insert to db failed!"⟩))

def downloadConfig : Option (CMsgHead × CConfig) :=
  match Message.parse (M := CDownloadconfigReq) msg with
  | (false, _) => none
  | (true, req) =>
    let ip := fillIp clientIp req.serviceIp
    some (sendMsg MSG_DOWNLOAD_CONFIG_RES
      (dao.downloadConfig collation o (cstr ip) req.servicePort))

/-- What gets back to the client; larger bodies than `maxMsgSize` are refused on arrival. -/
def answer : Option CConfig :=
  ((downloadConfig collation o clientIp msg dao).map (·.2)).filter fun conf =>
    (Message.serialize conf).length ≤ maxMsgSize

def downloadAllConfig : Option (CMsgHead × CConfigList) :=
  match Message.parse (M := CDownloadAllConfigReq) msg with
  | (false, _) => none
  | (true, req) =>
    some (sendMsg MSG_DOWNLOAD_ALL_CONFIG_RES (dao.downloadAllConfig o req.page req.pageCount))

/-- An empty address is not filled in here, and the failure goes out as another type. -/
def deleteConfig : ConfigDAO × Option (CMsgHead × CMessageRes) :=
  match Message.parse (M := CDownloadconfigReq) msg with
  | (false, _) => (dao, none)
  | (true, req) =>
    match dao.deleteConfig collation o (cstr req.serviceIp) req.servicePort with
    | (true, dao) => (dao, some (sendMsg MSG_DELETE_CONFIG_RES ⟨.OK, Kind.utf8 "OK"⟩))
    | (false, dao) =>
      (dao, some (sendMsg MSG_DOWNLOAD_CONFIG_RES
        ⟨.ERROR, Kind.utf8 "ConfigDAO::get()->deleteConfig failed!"⟩))

/-- It can be parsed. -/
theorem parse_answer {collation : Collation} {o : Outcome} {clientIp : String} {msg : List UInt8}
    {dao : ConfigDAO} {conf : CConfig} (answered : answer collation o clientIp msg dao = some conf) :
    Message.parse (Message.serialize conf) = (true, conf) := by
  have small := of_decide_eq_true (Option.filter_eq_some_iff.mp answered).2
  refine Message.parse_serialize ?_
  unfold maxMsgSize at small
  omega

end CConfigHandle

end MicroserviceFramework.Config
