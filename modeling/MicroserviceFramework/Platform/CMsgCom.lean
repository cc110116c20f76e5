import MicroserviceFramework.Platform.CMsgHead
import Mathlib.Data.List.AList

/-!
# The messages of the services

The requests and responses of `cmsgcom.proto` that the handlers of the registry, the config
centre, the user system, the directory and the log server read and send, with the layouts of those
that are parsed. A default value is that of proto3.

A protobuf map has one value for each key; its entries are in no particular order.
-/

namespace MicroserviceFramework.Platform

open Library.Wire

/-- `sendMsg(type, message)`: a message goes out with a header of its own. -/
def sendMsg {M : Type} (type : CMsgType) (message : M) : CMsgHead × M :=
  ({ msgType := type }, message)

/-! ## The common response -/

namespace CMessageRes

inductive CReturn where
  | OK | ERROR
  deriving DecidableEq, Repr

end CMessageRes

structure CMessageRes where
  return_ : CMessageRes.CReturn := .OK
  msg : List UInt8 := []
  deriving DecidableEq, Repr

/-- The code asks a return value only whether it is `OK`. -/
def CMessageRes.CReturn.slot : Slot CMessageRes.CReturn where
  zero := .OK
  write n r := ((Slot.scalar .int32).write n (if r = .OK then 0 else 1))
  read f r := match f with
    | .varint _ value => (true, if Int32.ofInt value = 0 then .OK else .ERROR)
    | _ => (true, r)
  number n r := (Slot.scalar .int32).number n _
  valid n r := (Slot.scalar .int32).valid n _
  feed_write n r short := by cases r <;> rfl

instance : Message CMessageRes where
  layout := (Layout.cons CMessageRes.CReturn.slot (.values [.bytes])).iso
    (fun (return_, msg, ()) => ⟨return_, msg⟩) (fun r => (r.return_, r.msg, ()))
    (fun _ => rfl) fun _ => rfl
  few := by decide

/-! ## Configurations -/

structure CConfig where
  serviceName : String := ""
  servicePort : Int32 := 0
  serviceIp : String := ""
  privatePb : List UInt8 := []
  proto : List UInt8 := []
  deriving DecidableEq, Repr

instance : Message CConfig where
  layout := (Layout.values [.string, .int32, .string, .bytes, .bytes]).iso
    (fun (name, port, ip, privatePb, proto, ()) => ⟨name, port, ip, privatePb, proto⟩)
    (fun c => (c.serviceName, c.servicePort, c.serviceIp, c.privatePb, c.proto, ()))
    (fun _ => rfl) fun _ => rfl
  few := by decide

structure CConfigList where
  config : List CConfig := []
  deriving DecidableEq, Repr

/-- Asks for a configuration, or for its deletion. -/
structure CDownloadconfigReq where
  servicePort : Int32 := 0
  serviceIp : String := ""
  deriving DecidableEq, Repr

instance : Message CDownloadconfigReq where
  layout := (Layout.values [.int32, .string]).iso (fun (port, ip, ()) => ⟨port, ip⟩)
    (fun r => (r.servicePort, r.serviceIp, ())) (fun _ => rfl) fun _ => rfl
  few := by decide

structure CDownloadAllConfigReq where
  page : Int32 := 0
  pageCount : Int32 := 0
  deriving DecidableEq, Repr

instance : Message CDownloadAllConfigReq where
  layout := (Layout.values [.int32, .int32]).iso (fun (page, pageCount, ()) => ⟨page, pageCount⟩)
    (fun r => (r.page, r.pageCount, ())) (fun _ => rfl) fun _ => rfl
  few := by decide

/-- The configuration of the directory service, as an example of a service's own type. -/
structure CDirConfig where
  root : String := ""
  deriving DecidableEq, Repr

instance : Message CDirConfig where
  layout := (Layout.values [.string]).iso (fun (root, ()) => ⟨root⟩)
    (fun c => (c.root, ())) (fun _ => rfl) fun _ => rfl
  few := by decide

/-! ## Directories -/

structure CDirReq where
  path : String := ""
  deriving DecidableEq, Repr

instance : Message CDirReq where
  layout := (Layout.values [.string]).iso (fun (path, ()) => ⟨path⟩)
    (fun r => (r.path, ())) (fun _ => rfl) fun _ => rfl
  few := by decide

namespace CDirRes

inductive CDirType where
  | OK | ERROR | NODIR
  deriving DecidableEq, Repr

structure CDir where
  filename : String := ""
  filesize : Int32 := 0
  deriving DecidableEq, Repr

end CDirRes

structure CDirRes where
  res : CDirRes.CDirType := .OK
  dirs : List CDirRes.CDir := []
  deriving DecidableEq, Repr

/-! ## Services -/

structure CRegisterReq where
  name : String := ""
  port : Int32 := 0
  ip : String := ""
  deriving DecidableEq, Repr

instance : Message CRegisterReq where
  layout := (Layout.values [.string, .int32, .string]).iso
    (fun (name, port, ip, ()) => ⟨name, port, ip⟩) (fun r => (r.name, r.port, r.ip, ()))
    (fun _ => rfl) fun _ => rfl
  few := by decide

/-- Which services a response holds; an open enumeration. -/
abbrev CServiceType := Int32

namespace CServiceType

def ONE : CServiceType := 0
def ALL : CServiceType := 1

end CServiceType

structure CGetServiceReq where
  name : String := ""
  type : CServiceType := .ONE
  deriving DecidableEq, Repr

instance : Message CGetServiceReq where
  layout := (Layout.values [.string, .int32]).iso (fun (name, type, ()) => ⟨name, type⟩)
    (fun r => (r.name, r.type, ())) (fun _ => rfl) fun _ => rfl
  few := by decide

structure CService where
  name : String := ""
  ip : String := ""
  port : Int32 := 0
  deriving DecidableEq, Repr

instance : Message CService where
  layout := (Layout.values [.string, .string, .int32]).iso
    (fun (name, ip, port, ()) => ⟨name, ip, port⟩) (fun s => (s.name, s.ip, s.port, ()))
    (fun _ => rfl) fun _ => rfl
  few := by decide

abbrev CServiceList := List CService

instance : Message CServiceList where
  layout := (Layout.cons (.repeated (Message.layout : Layout CService) Message.few) .nil).iso
    (fun (services, ()) => services) (fun services => (services, ())) (fun _ => rfl) fun _ => rfl
  few := by decide

structure CServiceMap where
  serviceMap : AList fun _ : String => CServiceList := ∅
  res : Option CMessageRes := none
  type : CServiceType := .ONE
  deriving DecidableEq

instance : Message CServiceMap where
  layout := (Layout.cons (.map (Message.layout : Layout CServiceList) Message.few)
    (.cons (.message (Message.layout : Layout CMessageRes) Message.few) (.values [.int32]))).iso
    (fun (serviceMap, res, type, ()) => ⟨serviceMap, res, type⟩)
    (fun m => (m.serviceMap, m.res, m.type, ())) (fun _ => rfl) fun _ => rfl
  few := by decide

/-! ## Logs -/

/-- How severe a log is; an open enumeration. -/
abbrev CLogLevel := Int32

namespace CLogLevel

def CLOG_DEBUG : CLogLevel := 0
def CLOG_INFO : CLogLevel := 1
def CLOG_ERROR : CLogLevel := 2
def CLOG_FATAL : CLogLevel := 3

end CLogLevel

structure CAddLogReq where
  service_ip : String := ""
  service_port : Int32 := 0
  service_name : String := ""
  log_txt : List UInt8 := []
  log_time : Int32 := 0
  log_level : CLogLevel := .CLOG_DEBUG
  filename : String := ""
  line : Int32 := 0
  deriving DecidableEq, Repr

instance : Message CAddLogReq where
  layout := (Layout.values [.string, .int32, .string, .bytes, .int32, .int32, .string, .int32]).iso
    (fun (ip, port, name, txt, time, level, filename, line, ()) =>
      ⟨ip, port, name, txt, time, level, filename, line⟩)
    (fun r => (r.service_ip, r.service_port, r.service_name, r.log_txt, r.log_time, r.log_level,
      r.filename, r.line, ()))
    (fun _ => rfl) fun _ => rfl
  few := by decide

end MicroserviceFramework.Platform
