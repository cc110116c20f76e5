import MicroserviceFramework.Auth.CAuthHandle
import MicroserviceFramework.Config.CConfigHandle
import MicroserviceFramework.Register.CRegisterHandle

/-!
# The handlers of the services

The callbacks that are registered for the requests of the directory, the user system, the config
centre and the registry, as one table: the type that each is registered for, the type and the
message that `cmsgtype.proto` has for its response, and what it does. The environment says how
the database calls of a request come out.
-/

namespace MicroserviceFramework.Services

open Library.Wire Platform CMsgType
open Config (Collation ConfigDAO)
open Auth (AuthDb)

/-! ## The directory service -/

/-- The `i`-th file of an answer, when `count` had this value before. -/
def dirOf (count : Int32) (i : Nat) : CDirRes.CDir where
  filename := "filename " ++ (count + Int32.ofNat (i + 1)).toInt.repr ++ "_" ++ Nat.repr i
  filesize := Int32.ofNat ((i + 1) * 1024)

/-- `CDirServiceHandle::dirReqCb`. The path is read and not used: the answer is ten made-up files,
numbered by a counter of the process. The header of the request is kept for the route back. -/
def dirReqCb [Protobuf] (count : Int32) (head : CMsgHead) (msg : CMsg) :
    Int32 × Option (CMsgHead × CDirRes) :=
  if msg.data = none ∨ msg.size ≤ 0 then (count, none)
  else
    match Message.parse (M := CDirReq) msg.bytes with
    | (false, _) => (count, none)
    | (true, _) =>
      (count + 10, some ({ head with msgType := CMsgType.MSG_DIR_RES },
        { dirs := (List.range 10).map (dirOf count) }))

/-! ## The table -/

inductive Handler where
  | dirReqCb | loginReq | addUserReq
  | uploadConfig | downloadConfig | downloadAllConfig | deleteConfig
  | registerReq | getServiceReq
  deriving DecidableEq, Repr

/-- The messages that responses are. -/
inductive Payload where
  | dirRes (res : CDirRes)
  | loginRes (res : Auth.CLoginRes)
  | messageRes (res : CMessageRes)
  | config (conf : CConfig)
  | configList (configs : CConfigList)
  | serviceMap (map : CServiceMap)
  deriving DecidableEq

inductive PayloadKind where
  | CDirRes | CLoginRes | CMessageRes | CConfig | CConfigList | CServiceMap
  deriving DecidableEq, Repr

def Payload.kind : Payload → PayloadKind
  | dirRes _ => .CDirRes
  | loginRes _ => .CLoginRes
  | messageRes _ => .CMessageRes
  | config _ => .CConfig
  | configList _ => .CConfigList
  | serviceMap _ => .CServiceMap

/-- The message that a client parses a response of this type as. -/
def declared (type : CMsgType) : Option PayloadKind :=
  if type = MSG_DIR_RES then some .CDirRes
  else if type = MSG_LOGIN_RES then some .CLoginRes
  else if type = MSG_GET_SERVICE_RES then some .CServiceMap
  else if type = MSG_DOWNLOAD_CONFIG_RES then some .CConfig
  else if type = MSG_DOWNLOAD_ALL_CONFIG_RES then some .CConfigList
  else if type ∈ [MSG_REGISTER_RES, MSG_UPLOAD_CONFIG_RES, MSG_DELETE_CONFIG_RES,
    MSG_ADD_USER_RES] then some .CMessageRes
  else none

/-- The processes of the four services. -/
structure State where
  count : Int32 := 0
  authDb : AuthDb := {}
  dao : ConfigDAO := {}
  serviceMap : Option CServiceMap := none

/-- What the handling of one request depends on besides. -/
structure Env where
  collation : Collation := .exact
  login : Auth.Outcomes := {}
  addUser : Auth.Outcome := {}
  config : Config.Outcome := {}
  clientIp : String := ""

/-- Messages with the headers under which they are sent. -/
abbrev Replies := List (CMsgHead × Payload)

def Replies.of {M : Type} (payload : M → Payload) (reply : Option (CMsgHead × M)) : Replies :=
  reply.toList.map fun (head, message) => (head, payload message)

namespace Handler

def reqType : Handler → CMsgType
  | dirReqCb => MSG_DIR_REQ
  | loginReq => MSG_LOGIN_REQ
  | addUserReq => MSG_ADD_USER_REQ
  | uploadConfig => MSG_UPLOAD_CONFIG_REQ
  | downloadConfig => MSG_DOWNLOAD_CONFIG_REQ
  | downloadAllConfig => MSG_DOWNLOAD_ALL_CONFIG_REQ
  | deleteConfig => MSG_DELETE_CONFIG_REQ
  | registerReq => MSG_REGISTER_REQ
  | getServiceReq => MSG_GET_SERVICE_REQ

def resType : Handler → CMsgType
  | dirReqCb => MSG_DIR_RES
  | loginReq => MSG_LOGIN_RES
  | addUserReq => MSG_ADD_USER_RES
  | uploadConfig => MSG_UPLOAD_CONFIG_RES
  | downloadConfig => MSG_DOWNLOAD_CONFIG_RES
  | downloadAllConfig => MSG_DOWNLOAD_ALL_CONFIG_RES
  | deleteConfig => MSG_DELETE_CONFIG_RES
  | registerReq => MSG_REGISTER_RES
  | getServiceReq => MSG_GET_SERVICE_RES

/-- The message of the response. -/
def resMessage : Handler → PayloadKind
  | dirReqCb => .CDirRes
  | loginReq => .CLoginRes
  | addUserReq | uploadConfig | deleteConfig | registerReq => .CMessageRes
  | downloadConfig => .CConfig
  | downloadAllConfig => .CConfigList
  | getServiceReq => .CServiceMap

/-- In `CMsgType` the response comes right after the request. -/
theorem resType_eq (h : Handler) : h.resType = h.reqType + 1 := by
  cases h <;> rfl

/-- No two of the functions are registered for the same type. -/
theorem reqType_injective : Function.Injective reqType := by
  intro h h' same
  cases h <;> cases h' <;> first | rfl | exact absurd same (by decide)

/-- So the response says which request it answers. -/
theorem resType_injective : Function.Injective resType := by
  intro h h' same
  rw [resType_eq, resType_eq] at same
  exact reqType_injective ((Int32.add_left_inj 1).mp same)

theorem declared_resType (h : Handler) : declared h.resType = some h.resMessage := by
  cases h <;> decide

/-- Whether the body parses as the message of the request. -/
def parses [Protobuf] (msg : CMsg) : Handler → Bool
  | dirReqCb => (Message.parse (M := CDirReq) msg.bytes).1
  | loginReq => (Message.parse (M := Auth.CLoginReq) msg.bytes).1
  | addUserReq => (Message.parse (M := Auth.CAddUserReq) msg.bytes).1
  | uploadConfig => (Message.parse (M := CConfig) msg.bytes).1
  | downloadConfig | deleteConfig => (Message.parse (M := CDownloadconfigReq) msg.bytes).1
  | downloadAllConfig => (Message.parse (M := CDownloadAllConfigReq) msg.bytes).1
  | registerReq => (Message.parse (M := CRegisterReq) msg.bytes).1
  | getServiceReq => (Message.parse (M := CGetServiceReq) msg.bytes).1

/-- The process of a handler goes on with a new state, and what the handler sends is sent. -/
def result {σ M : Type} (put : σ → State) (payload : M → Payload)
    (outcome : σ × Option (CMsgHead × M)) : State × Replies :=
  (put outcome.1, .of payload outcome.2)

@[simp] theorem result_replies {σ M : Type} (put : σ → State) (payload : M → Payload)
    (outcome : σ × Option (CMsgHead × M)) :
    (result put payload outcome).2 = .of payload outcome.2 := rfl

variable [Protobuf] (env : Env) (head : CMsgHead) (msg : CMsg) (s : State)

def run : Handler → State × Replies
  | dirReqCb =>
    result (fun count => { s with count := count }) .dirRes
      (Services.dirReqCb s.count head msg)
  | loginReq =>
    result (fun db => { s with authDb := db }) .loginRes
      (Auth.loginReq env.login s.authDb head msg)
  | addUserReq =>
    result (fun db => { s with authDb := db }) .messageRes
      (Auth.addUserReq env.addUser s.authDb msg.bytes)
  | uploadConfig =>
    result (fun dao => { s with dao := dao }) .messageRes
      (Config.CConfigHandle.uploadConfig env.collation env.config env.clientIp msg.bytes s.dao)
  | downloadConfig =>
    (s, .of .config
      (Config.CConfigHandle.downloadConfig env.collation env.config env.clientIp msg.bytes s.dao))
  | downloadAllConfig =>
    (s, .of .configList (Config.CConfigHandle.downloadAllConfig env.config msg.bytes s.dao))
  | deleteConfig =>
    result (fun dao => { s with dao := dao }) .messageRes
      (Config.CConfigHandle.deleteConfig env.collation env.config msg.bytes s.dao)
  | registerReq =>
    result (fun map => { s with serviceMap := map }) .messageRes
      (Register.CRegisterHandle.registerReq env.clientIp msg.bytes s.serviceMap)
  | getServiceReq =>
    result (fun map => { s with serviceMap := map }) .serviceMap
      (Register.CRegisterHandle.getServiceReq msg.bytes s.serviceMap)

end Handler

end MicroserviceFramework.Services
