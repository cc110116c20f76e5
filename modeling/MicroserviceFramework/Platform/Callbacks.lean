import MicroserviceFramework.Platform.Receiver

/-!
# The callback table

`msgCb` of `cmsgevent.cpp` is one table for the process, from message types to member functions.
`regCb` fills it, the first registration of a type for good, and `readCb(head, msg)` calls the
entry on whatever object the message came to. Nothing in the table says which class a function
belongs to: `owner` and `lineage` here are the declarations of the program. The cast to `msgCbFunc`
is defined only as long as the function is called on an object of its own class.
-/

namespace MicroserviceFramework.Platform

section Table

variable {Func Class : Type*}

/-- `msgCb`, with each type at most once. -/
abbrev MsgCb (Func : Type*) := List (CMsgType × Func)

/-- A type that has a callback keeps it, and the attempt is logged. -/
def regCb (msgCb : MsgCb Func) (type : CMsgType) (func : Func) : MsgCb Func :=
  if (msgCb.lookup type).isSome then msgCb else msgCb ++ [(type, func)]

/-- The table after the registrations of a process, in the order they are made. -/
def regAll (regs : List (CMsgType × Func)) : MsgCb Func :=
  regs.foldl (fun msgCb reg => regCb msgCb reg.1 reg.2) []

/-- `readCb(head, msg)`: the function that is called, or a cleared receiver. -/
def Receiver.callback (msgCb : MsgCb Func) (head : CMsgHead) (r : Receiver) :
    Option Func × Receiver :=
  match msgCb.lookup head.msgType with
  | none => (none, r.clear)
  | some func => (some func, r)

theorem lookup_regCb (msgCb : MsgCb Func) (type t : CMsgType) (func : Func) :
    (regCb msgCb type func).lookup t = (msgCb ++ [(type, func)]).lookup t := by
  unfold regCb
  split
  next taken =>
    rw [List.lookup_append]
    by_cases same : t = type
    · subst same
      obtain ⟨f, entry⟩ := Option.isSome_iff_exists.mp taken
      simp [entry]
    · simp [List.lookup_cons, beq_eq_false_iff_ne.mpr same]
  next => rfl

/-- The entry of a type is the function registered for it first. -/
theorem lookup_regAll (regs : List (CMsgType × Func)) (t : CMsgType) :
    (regAll regs).lookup t = regs.lookup t := by
  have from_table (msgCb : MsgCb Func) :
      (regs.foldl (fun msgCb reg => regCb msgCb reg.1 reg.2) msgCb).lookup t =
        (msgCb ++ regs).lookup t := by
    induction regs generalizing msgCb with
    | nil => simp
    | cons reg regs ih =>
      rw [List.foldl_cons, ih, List.lookup_append, lookup_regCb, ← List.lookup_append]
      simp
  exact from_table []

/-- The function called is the first that the process registered for the type. -/
theorem callback_eq (regs : List (CMsgType × Func)) (head : CMsgHead) (r : Receiver) :
    (r.callback (regAll regs) head).1 = regs.lookup head.msgType := by
  unfold Receiver.callback
  rw [lookup_regAll]
  cases regs.lookup head.msgType <;> rfl

/-- The first registration of a type, if there is one, was made by the class or a base class. -/
def FirstByOwn (owner : Func → Class) (lineage : Class → List Class)
    (regs : List (CMsgType × Func)) (C : Class) (type : CMsgType) : Prop :=
  ∀ reg, regs.find? (fun reg => reg.1 = type) = some reg → owner reg.2 ∈ lineage C

theorem lookup_eq_find (regs : List (CMsgType × Func)) (t : CMsgType) :
    regs.lookup t = (regs.find? fun reg => reg.1 = t).map (·.2) := by
  induction regs with
  | nil => rfl
  | cons reg regs ih =>
    rw [List.lookup_cons, List.find?_cons]
    by_cases same : reg.1 = t
    · simp [same]
    · have other : (t == reg.1) = false := beq_eq_false_iff_ne.mpr (Ne.symm same)
      simp [same, other, ih]

/-- After any registrations, a frame that comes to an object of any class `C` is handled by `C` and
its base classes alone if and only if the first registration of its type was made by one of them. -/
theorem callback_owned_iff (owner : Func → Class) (lineage : Class → List Class)
    (regs : List (CMsgType × Func)) (C : Class) (head : CMsgHead) (r : Receiver) :
    (∀ func, (r.callback (regAll regs) head).1 = some func → owner func ∈ lineage C) ↔
      FirstByOwn owner lineage regs C head.msgType := by
  rw [callback_eq, lookup_eq_find, FirstByOwn]
  simp only [Option.map_eq_some_iff]
  constructor
  · intro own reg first
    exact own reg.2 ⟨reg, first, rfl⟩
  · rintro own func ⟨reg, first, rfl⟩
    exact own reg first

end Table

/-! ## The config server -/

namespace ConfigServer

inductive Class where
  | CTask | CComeTask | CMsgEvent | CServiceHandle | CServiceClient | CConfigHandle
  | CRegisterClient
  deriving DecidableEq, Repr

/-- A class and its base classes. -/
def lineage : Class → List Class
  | .CTask => [.CTask]
  | .CComeTask => [.CComeTask, .CTask]
  | .CMsgEvent => [.CMsgEvent, .CComeTask, .CTask]
  | .CServiceHandle => [.CServiceHandle, .CMsgEvent, .CComeTask, .CTask]
  | .CServiceClient => [.CServiceClient, .CMsgEvent, .CComeTask, .CTask]
  | .CConfigHandle => [.CConfigHandle, .CServiceHandle, .CMsgEvent, .CComeTask, .CTask]
  | .CRegisterClient => [.CRegisterClient, .CServiceClient, .CMsgEvent, .CComeTask, .CTask]

inductive Func where
  | uploadConfig | downloadConfig | downloadAllConfig | deleteConfig
  | registerRes | getServiceRes
  deriving DecidableEq, Repr

def owner : Func → Class
  | .uploadConfig | .downloadConfig | .downloadAllConfig | .deleteConfig => .CConfigHandle
  | .registerRes | .getServiceRes => .CRegisterClient

open CMsgType

namespace CConfigHandle

def regMsgCallback : List (CMsgType × Func) :=
  [(MSG_UPLOAD_CONFIG_REQ, .uploadConfig), (MSG_DOWNLOAD_CONFIG_REQ, .downloadConfig),
    (MSG_DOWNLOAD_ALL_CONFIG_REQ, .downloadAllConfig), (MSG_DELETE_CONFIG_REQ, .deleteConfig)]

end CConfigHandle

namespace CRegisterClient

def regMsgCallback : List (CMsgType × Func) :=
  [(MSG_REGISTER_RES, .registerRes), (MSG_GET_SERVICE_RES, .getServiceRes)]

end CRegisterClient

/-- What `mainFunc` registers, the second part in `registerServer`. -/
def mainFunc : List (CMsgType × Func) :=
  CConfigHandle.regMsgCallback ++ CRegisterClient.regMsgCallback

/-- A client that sends the config server a list of services has it handled by
`CRegisterClient::getServiceRes`, called on a `CConfigHandle`. -/
theorem callback_of_another_class :
    ¬∀ (head : CMsgHead) (func : Func),
      (({} : Receiver).callback (regAll mainFunc) head).1 = some func →
        owner func ∈ lineage .CConfigHandle := by
  intro own
  exact absurd (own { msgType := MSG_GET_SERVICE_RES } .getServiceRes (by decide)) (by decide)

/-- An upload request is handled by the class of the connection. -/
theorem callback_of_upload :
    ∀ func, (({} : Receiver).callback (regAll mainFunc)
        { msgType := MSG_UPLOAD_CONFIG_REQ }).1 = some func →
      owner func ∈ lineage .CConfigHandle := by
  refine (callback_owned_iff owner lineage mainFunc .CConfigHandle _ {}).mpr fun reg first => ?_
  obtain rfl : (MSG_UPLOAD_CONFIG_REQ, Func.uploadConfig) = reg := Option.some.inj first
  decide

end ConfigServer

end MicroserviceFramework.Platform
