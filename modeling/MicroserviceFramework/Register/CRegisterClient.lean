import MicroserviceFramework.Platform.CMsgCom

/-!
# The client of the registry

`CRegisterClient` with its caches: the list of services in memory, the copy of it that
`getAllService` hands out, and the file that is written after every change. A response comes as
what `ParseFromArray` makes of it.
-/

namespace MicroserviceFramework.Register

open Library.Wire Platform

structure CRegisterClient where
  serviceName : String := ""
  serviceIp : String := ""
  servicePort : Int32 := 0
  pbServiceMap : Option CServiceMap := none
  pbClientMap : Option CServiceMap := none
  file : Option CServiceMap := none
  deriving DecidableEq

namespace CRegisterClient

/-- The body of the registration that is sent when the connection is made. -/
def connetedCb (c : CRegisterClient) : List UInt8 :=
  Message.serialize ({ name := c.serviceName, port := c.servicePort, ip := c.serviceIp } :
    CRegisterReq)

/-- The body of a query; without a name it is for all services. -/
def getServiceReq (serviceName : Option String) : List UInt8 :=
  match serviceName with
  | some name => Message.serialize ({ name := name, type := .ONE } : CGetServiceReq)
  | none => Message.serialize ({ type := .ALL } : CGetServiceReq)

/-- `SerializePartialToOstream`, if the file can be opened. -/
def save (opened : Bool) (c : CRegisterClient) : CRegisterClient :=
  if opened then { c with file := c.pbServiceMap } else c

/-- The first response is parsed straight into the cache, and leaves something there when it
cannot be parsed. Later ones replace the cache or the one list they have, and one that has none
is dropped. -/
def getServiceRes (parsed : Bool × CServiceMap) (opened : Bool) (c : CRegisterClient) :
    CRegisterClient :=
  match c.pbServiceMap, parsed with
  | none, (false, partly) => { c with pbServiceMap := some partly }
  | none, (true, map) => { c with pbServiceMap := some map }.save opened
  | some _, (false, _) => c
  | some cache, (true, map) =>
    if map.type = .ALL then { c with pbServiceMap := some map }.save opened
    else
      match map.serviceMap.entries.head? with
      | none => c
      | some ⟨name, services⟩ =>
        { c with
          pbServiceMap := some
            { cache with serviceMap := cache.serviceMap.insert name services } }.save opened

/-- What was saved last is read back; without a file the cache stays as it is. -/
def loadLocalFile (c : CRegisterClient) : CRegisterClient :=
  match c.file with
  | none => { c with pbServiceMap := some (c.pbServiceMap.getD {}) }
  | some saved => { c with pbServiceMap := some saved }

def getAllService (c : CRegisterClient) : CRegisterClient :=
  let c := c.loadLocalFile
  { c with pbClientMap := c.pbServiceMap }

/-- `opened` is whether the file, if there is one, can be opened for reading. -/
def loadLocalFileIf (opened : Bool) (c : CRegisterClient) : CRegisterClient :=
  if opened then c.loadLocalFile else { c with pbServiceMap := some (c.pbServiceMap.getD {}) }

def getAllServiceIf (opened : Bool) (c : CRegisterClient) : CRegisterClient :=
  let c := c.loadLocalFileIf opened
  { c with pbClientMap := c.pbServiceMap }

/-- A name or an address that is not given stays as it is. `file` is the file that has the new name,
address and port in its name. -/
def registerServer (serviceName : Option String) (port : Int32) (ip : Option String)
    (opened : Bool) (c : CRegisterClient) : CRegisterClient :=
  { c with
    serviceName := serviceName.getD c.serviceName
    serviceIp := ip.getD c.serviceIp
    servicePort := port }.loadLocalFileIf opened

end CRegisterClient

end MicroserviceFramework.Register
