import MicroserviceFramework.Auth.Login
import MicroserviceFramework.Platform.CMsgCom

/-!
# The registry

The handlers of `CRegisterHandle`, on the body of a request and the address of the client that
sent it. `serviceMap` is made by the first request that needs it; the map with its type and result
is one message, and a request for all services answers with that message itself.
-/

namespace MicroserviceFramework.Register

open Library.Wire Platform CMsgType
open Auth (cstr)

namespace CRegisterHandle

variable [Protobuf] (clientIp : String) (msg : List UInt8) (serviceMap : Option CServiceMap)

/-- A service as the logs and the errors name it: the name ends at its first NUL. -/
def serviceText (service : CService) : String :=
  "service [" ++ cstr service.name ++ "->" ++ service.ip ++ ":" ++ service.port.toInt.repr ++ "]"

def error (text : List UInt8) : Option (CMsgHead × CMessageRes) :=
  some (sendMsg MSG_REGISTER_RES ⟨.ERROR, text⟩)

/-- The colon in it is one of GBK, in which the source is written. -/
def portError (port : Int32) : List UInt8 :=
  Kind.utf8 "invalid servicePort" ++ [0xa3, 0xba] ++
    Kind.utf8 (" " ++ port.toInt.repr ++ " out of range: 1 ~ 65535!")

/-- The service to register. An empty address stands for that of the client. -/
def requested (req : CRegisterReq) : CService where
  name := req.name
  ip := if req.ip = "" then clientIp else req.ip
  port := req.port

/-- The map with a list for a name; a name that is new gets one without services. -/
def withList (map : CServiceMap) (name : String) : CServiceMap :=
  if name ∈ map.serviceMap then map
  else { map with serviceMap := map.serviceMap.insert name [] }

def registerReq : Option CServiceMap × Option (CMsgHead × CMessageRes) :=
  match Message.parse (M := CRegisterReq) msg with
  | (false, _) => (serviceMap, error (Kind.utf8 "CRegisterReq ParseFromArray failed!"))
  | (true, req) =>
    if req.name = "" then (serviceMap, error (Kind.utf8 "serviceName is empty!"))
    else
      let service := requested clientIp req
      if service.port ≤ 0 ∨ 65536 ≤ service.port then
        (serviceMap, error (portError service.port))
      else
        let map := withList (serviceMap.getD {}) service.name
        let services := (map.serviceMap.lookup service.name).getD []
        if services.any fun other => other.ip = service.ip ∧ other.port = service.port then
          (some map, error (Kind.utf8 (serviceText service ++ " already registed!")))
        else
          (some { map with
              serviceMap := map.serviceMap.insert service.name (services ++ [service]) },
            some (sendMsg MSG_REGISTER_RES ⟨.OK, Kind.utf8 "OK"⟩))

/-- `set_type` and `set_return_` on the message that goes out. -/
def answered (map : CServiceMap) (type : CServiceType) : CServiceMap :=
  { map with type := type, res := some { map.res.getD {} with return_ := .OK } }

def getServiceReq : Option CServiceMap × Option (CMsgHead × CServiceMap) :=
  let res : CServiceMap := { res := some { return_ := .ERROR } }
  match Message.parse (M := CGetServiceReq) msg with
  | (false, _) =>
    (serviceMap, some (sendMsg MSG_GET_SERVICE_RES
      { res with res := some ⟨.ERROR, Kind.utf8 "req.ParseFromArray failed!"⟩ }))
  | (true, req) =>
    let map := serviceMap.getD {}
    if req.type = .ALL then
      -- the message of the registry itself is changed and sent
      let map := answered map req.type
      (some map, some (sendMsg MSG_GET_SERVICE_RES map))
    else
      let res := match map.serviceMap.lookup req.name with
        | none => res
        | some services => { res with serviceMap := res.serviceMap.insert req.name services }
      (some map, some (sendMsg MSG_GET_SERVICE_RES (answered res req.type)))

end CRegisterHandle

end MicroserviceFramework.Register
