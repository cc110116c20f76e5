import MicroserviceFramework.Register.CRegisterHandle
import Mathlib.Logic.Function.Basic

/-!
# What the registry holds

The registry as a function from names to lists of services. A registration that is answered with
`OK` adds one service at the end of one list, and nothing else changes a list. So what is checked
of a service when it is added holds of every service in every reachable map.
-/

namespace MicroserviceFramework.Register

open Library.Wire Platform CMsgType

/-- The list of a name, if the name is known. -/
def registered (serviceMap : Option CServiceMap) (name : String) : Option CServiceList :=
  (serviceMap.getD {}).serviceMap.lookup name

/-- The services of a name; a name that is not known has none. -/
def services (serviceMap : Option CServiceMap) (name : String) : CServiceList :=
  (registered serviceMap name).getD []

theorem registered_insert (map : CServiceMap) (name : String) (list : CServiceList) :
    registered (some { map with serviceMap := map.serviceMap.insert name list }) =
      Function.update (registered (some map)) name (some list) := by
  funext other
  by_cases same : other = name
  · subst same
    simp [registered, AList.lookup_insert]
  · simp [registered, same, AList.lookup_insert_ne]

/-- A service can be added to the list of its name. -/
structure Addable (serviceMap : Option CServiceMap) (service : CService) : Prop where
  named : service.name ≠ ""
  port_pos : 0 < service.port
  port_lt : service.port < 65536
  fresh : ∀ other ∈ services serviceMap service.name,
    ¬(other.ip = service.ip ∧ other.port = service.port)

/-- The lists after a service was added. -/
def added (serviceMap : Option CServiceMap) (service : CService) : String → Option CServiceList :=
  Function.update (registered serviceMap) service.name
    (some (services serviceMap service.name ++ [service]))

namespace CRegisterHandle

/-- A list that was just made has the services that a missing list has. -/
theorem services_withList (map : CServiceMap) (name : String) :
    services (some (withList map name)) name = services (some map) name := by
  unfold withList
  split
  · rfl
  next missing =>
    have unknown : map.serviceMap.lookup name = none := AList.lookup_eq_none.mpr missing
    simp [services, registered, AList.lookup_insert, unknown]

/-- A list with a service in it was not just made. -/
theorem registered_withList {map : CServiceMap} {name : String}
    (known : services (some map) name ≠ []) :
    registered (some (withList map name)) = registered (some map) := by
  unfold withList
  split
  · rfl
  next missing =>
    have unknown : map.serviceMap.lookup name = none := AList.lookup_eq_none.mpr missing
    simp [services, registered, unknown] at known

/-- What replaces the list replaces it in the map as it was. -/
theorem update_withList (map : CServiceMap) (name : String) (list : Option CServiceList) :
    Function.update (registered (some (withList map name))) name list =
      Function.update (registered (some map)) name list := by
  unfold withList
  split
  · rfl
  · rw [registered_insert, Function.update_idem]

def ok : Option (CMsgHead × CMessageRes) :=
  some (sendMsg MSG_REGISTER_RES ⟨.OK, Kind.utf8 "OK"⟩)

theorem error_ne_ok (text : List UInt8) : error text ≠ ok := by
  simp [error, ok, sendMsg]

variable [Protobuf] (clientIp : String) (msg : List UInt8) (serviceMap : Option CServiceMap)

/-- A service that can be added is added. -/
theorem registerReq_added {req : CRegisterReq} (parsed : Message.parse msg = (true, req))
    (addable : Addable serviceMap (requested clientIp req)) :
    (registerReq clientIp msg serviceMap).2 = ok ∧
      registered (registerReq clientIp msg serviceMap).1 =
        added serviceMap (requested clientIp req) := by
  have named : req.name ≠ "" := addable.named
  have range : ¬((requested clientIp req).port ≤ 0 ∨ 65536 ≤ (requested clientIp req).port) := by
    have pos := addable.port_pos
    have lt := addable.port_lt
    grind
  unfold registerReq
  rw [parsed]
  dsimp only
  rw [if_neg named, if_neg range]
  generalize requested clientIp req = service at addable
  have list := services_withList (serviceMap.getD {}) service.name
  rw [services, registered, Option.getD_some] at list
  rw [list, if_neg]
  · exact ⟨rfl, (registered_insert _ _ _).trans (update_withList _ _ _)⟩
  · rw [List.any_eq_true]
    rintro ⟨other, mem, same⟩
    exact addable.fresh other mem (of_decide_eq_true same)

/-- One that cannot is refused, and no list changes. -/
theorem registerReq_refused {req : CRegisterReq} (parsed : Message.parse msg = (true, req))
    (refused : ¬Addable serviceMap (requested clientIp req)) :
    ∃ text, (registerReq clientIp msg serviceMap).2 = error text ∧
      registered (registerReq clientIp msg serviceMap).1 = registered serviceMap := by
  unfold registerReq
  rw [parsed]
  dsimp only
  by_cases unnamed : req.name = ""
  · rw [if_pos unnamed]
    exact ⟨_, rfl, rfl⟩
  rw [if_neg unnamed]
  generalize asked : requested clientIp req = service at refused
  have named : service.name ≠ "" := asked ▸ unnamed
  by_cases range : service.port ≤ 0 ∨ 65536 ≤ service.port
  · rw [if_pos range]
    exact ⟨_, rfl, rfl⟩
  rw [if_neg range]
  have list := services_withList (serviceMap.getD {}) service.name
  rw [services, registered, Option.getD_some] at list
  rw [list]
  split
  next found =>
    have known : services (some (serviceMap.getD {})) service.name ≠ [] := by
      intro empty
      simp [empty] at found
    exact ⟨_, rfl, registered_withList known⟩
  next fresh =>
    refine absurd ⟨named, by grind, by grind, fun other mem same => ?_⟩ refused
    exact fresh (List.any_eq_true.mpr ⟨other, mem, by simpa using same⟩)

/-- A registration is refused and changes no list, or adds its service. -/
theorem registerReq_cases :
    (∃ text, (registerReq clientIp msg serviceMap).2 = error text ∧
      registered (registerReq clientIp msg serviceMap).1 = registered serviceMap) ∨
    (∃ req, Message.parse msg = (true, req) ∧ Addable serviceMap (requested clientIp req) ∧
      (registerReq clientIp msg serviceMap).2 = ok ∧
      registered (registerReq clientIp msg serviceMap).1 =
        added serviceMap (requested clientIp req)) := by
  rcases parsed : (Message.parse msg : Bool × CRegisterReq) with ⟨readable, req⟩
  cases readable with
  | false =>
    unfold registerReq
    rw [parsed]
    exact .inl ⟨_, rfl, rfl⟩
  | true =>
    by_cases addable : Addable serviceMap (requested clientIp req)
    · exact .inr ⟨req, rfl, addable, registerReq_added clientIp msg serviceMap parsed addable⟩
    · exact .inl (registerReq_refused clientIp msg serviceMap parsed addable)

/-- A query changes no list. -/
theorem getServiceReq_registered :
    registered (getServiceReq msg serviceMap).1 = registered serviceMap := by
  unfold getServiceReq
  split
  · rfl
  · dsimp only
    split <;> rfl

omit [Protobuf] in
theorem lookup_insert_empty (asked name : String) (list : CServiceList) :
    ((∅ : AList fun _ : String => CServiceList).insert asked list).lookup name =
      if name = asked then some list else none := by
  split
  next same => rw [same, AList.lookup_insert]
  next other => exact AList.lookup_insert_ne other

/-- The answer to a query that can be read. -/
theorem getServiceReq_parsed {req : CGetServiceReq} (parsed : Message.parse msg = (true, req)) :
    ∃ answer : CServiceMap, (getServiceReq msg serviceMap).2 =
        some (sendMsg MSG_GET_SERVICE_RES answer) ∧ answer.type = req.type ∧
      (req.type = .ALL → (getServiceReq msg serviceMap).1 = some answer) ∧
      (req.type ≠ .ALL → ∀ name, answer.serviceMap.lookup name =
        if name = req.name then registered serviceMap name else none) := by
  unfold getServiceReq
  rw [parsed]
  dsimp only
  by_cases all : req.type = .ALL
  · rw [if_pos all]
    exact ⟨_, rfl, rfl, fun _ => rfl, fun one => absurd all one⟩
  · rw [if_neg all]
    refine ⟨_, rfl, rfl, fun all' => absurd all' all, fun _ name => ?_⟩
    rw [answered, registered]
    rcases list : (serviceMap.getD {}).serviceMap.lookup req.name with _ | services
    · have none_there : (∅ : AList fun _ : String => CServiceList).lookup name = none := rfl
      grind
    · dsimp only
      rw [lookup_insert_empty]
      grind

end CRegisterHandle

/-! ## Valid maps -/

/-- What is checked of a service holds of all that are stored. -/
structure Valid (serviceMap : Option CServiceMap) : Prop where
  named : ∀ name list, registered serviceMap name = some list → name ≠ ""
  entries : ∀ name, ∀ service ∈ services serviceMap name,
    service.name = name ∧ 1 ≤ service.port.toInt ∧ service.port.toInt ≤ 65535
  distinct : ∀ name, ((services serviceMap name).map fun s => (s.ip, s.port)).Nodup

theorem Valid.none : Valid none := by
  constructor <;> intro name <;> simp [services, registered]

theorem Valid.congr {m m' : Option CServiceMap} (valid : Valid m)
    (same : registered m' = registered m) : Valid m' := by
  obtain ⟨named, entries, distinct⟩ := valid
  have same' : services m' = services m := by
    funext name
    rw [services, services, same]
  exact ⟨same ▸ named, same' ▸ entries, same' ▸ distinct⟩

theorem Valid.add {m m' : Option CServiceMap} {service : CService} (valid : Valid m)
    (addable : Addable m service) (lists : registered m' = added m service) : Valid m' := by
  have at_name : services m' service.name = services m service.name ++ [service] := by
    rw [services, lists, added, Function.update_self]
    rfl
  have elsewhere : ∀ name, name ≠ service.name → services m' name = services m name := by
    intro name other
    rw [services, lists, added, Function.update_of_ne other, services]
  refine ⟨fun name list known => ?_, fun name => ?_, fun name => ?_⟩
  · by_cases here : name = service.name
    · rw [here]
      exact addable.named
    · rw [lists, added, Function.update_of_ne here] at known
      exact valid.named name list known
  · by_cases here : name = service.name
    · rw [here, at_name]
      intro other mem
      rcases List.mem_append.mp mem with old | new
      · exact valid.entries _ other old
      · obtain rfl := List.mem_singleton.mp new
        have pos := Int32.lt_iff_toInt_lt.mp addable.port_pos
        have lt := Int32.lt_iff_toInt_lt.mp addable.port_lt
        exact ⟨rfl, pos, Int.le_of_lt_add_one lt⟩
    · rw [elsewhere name here]
      exact valid.entries name
  · by_cases here : name = service.name
    · rw [here, at_name, List.map_append, List.nodup_append]
      refine ⟨valid.distinct _, List.nodup_singleton _, ?_⟩
      intro address old address' new same
      obtain ⟨other, mem, rfl⟩ := List.mem_map.mp old
      obtain rfl := List.mem_singleton.mp new
      exact addable.fresh other mem (by simpa using same)
    · rw [elsewhere name here]
      exact valid.distinct name

/-- A list that has grown is not the same list. -/
theorem added_ne (m : Option CServiceMap) (service : CService) :
    added m service ≠ registered m := by
  intro same
  have list := congrFun same service.name
  rw [added, Function.update_self] at list
  have length := congrArg (fun list => (list.getD []).length) list
  simp [services] at length

/-! ## Any sequence of requests -/

section

variable [Protobuf]

inductive Request where
  | registerReq (clientIp : String) (msg : List UInt8)
  | getServiceReq (msg : List UInt8)
  deriving DecidableEq, Repr

namespace Request

/-- The map after a request, whatever is answered. -/
def handle (serviceMap : Option CServiceMap) : Request → Option CServiceMap
  | registerReq clientIp msg => (CRegisterHandle.registerReq clientIp msg serviceMap).1
  | getServiceReq msg => (CRegisterHandle.getServiceReq msg serviceMap).1

end Request

def served (requests : List Request) : Option CServiceMap := requests.foldl Request.handle none

theorem Request.handle_valid {m : Option CServiceMap} (valid : Valid m) (request : Request) :
    Valid (request.handle m) := by
  cases request with
  | registerReq clientIp msg =>
    rcases CRegisterHandle.registerReq_cases clientIp msg m with
      ⟨text, -, same⟩ | ⟨req, -, addable, -, lists⟩
    · exact valid.congr same
    · exact valid.add addable lists
  | getServiceReq msg => exact valid.congr (CRegisterHandle.getServiceReq_registered msg m)

/-- Every map that requests lead to is valid. -/
theorem served_valid (requests : List Request) : Valid (served requests) := by
  have start : ∀ m, Valid m → Valid (requests.foldl Request.handle m) := by
    induction requests with
    | nil => exact fun m valid => valid
    | cons r rs ih => exact fun m valid => ih _ (r.handle_valid valid)
  exact start none .none

/-- What a request does to the map, and what it is answered. -/
def Request.Answered (m : Option CServiceMap) : Request → Prop
  | .registerReq clientIp msg =>
    let (m', reply) := CRegisterHandle.registerReq clientIp msg m
    (reply = CRegisterHandle.ok ↔ ∃ req, Message.parse msg = (true, req) ∧
        Addable m (CRegisterHandle.requested clientIp req)) ∧
      (reply = CRegisterHandle.ok ↔ ∃ req, Message.parse msg = (true, req) ∧
        registered m' = added m (CRegisterHandle.requested clientIp req)) ∧
      (reply = CRegisterHandle.ok ∨
        (∃ text, reply = CRegisterHandle.error text) ∧ registered m' = registered m)
  | .getServiceReq msg =>
    let (m', reply) := CRegisterHandle.getServiceReq msg m
    registered m' = registered m ∧
      ∀ req : CGetServiceReq, Message.parse msg = (true, req) → ∃ answer : CServiceMap,
        reply = some (sendMsg MSG_GET_SERVICE_RES answer) ∧ answer.type = req.type ∧
        (req.type = .ALL → m' = some answer) ∧
        (req.type ≠ .ALL → ∀ name, answer.serviceMap.lookup name =
          if name = req.name then registered m name else none)

theorem Request.answered (m : Option CServiceMap) (request : Request) : request.Answered m := by
  cases request with
  | registerReq clientIp msg =>
    rcases CRegisterHandle.registerReq_cases clientIp msg m with
      ⟨text, refused, same⟩ | ⟨req, parsed, addable, reply, lists⟩
    · have not_ok := refused ▸ CRegisterHandle.error_ne_ok text
      refine ⟨iff_of_false not_ok ?_, iff_of_false not_ok ?_, .inr ⟨⟨text, refused⟩, same⟩⟩
      · rintro ⟨req, parsed, addable⟩
        exact not_ok (CRegisterHandle.registerReq_added clientIp msg m parsed addable).1
      · rintro ⟨req, -, lists⟩
        exact added_ne _ _ (lists.symm.trans same)
    · exact ⟨iff_of_true reply ⟨req, parsed, addable⟩, iff_of_true reply ⟨req, parsed, lists⟩,
        .inl reply⟩
  | getServiceReq msg =>
    exact ⟨CRegisterHandle.getServiceReq_registered msg m, fun req parsed =>
      CRegisterHandle.getServiceReq_parsed msg m parsed⟩

/-- After any requests the registry is valid, and the next request is answered by what it does. -/
theorem registry_invariant (requests : List Request) :
    Valid (served requests) ∧ ∀ request : Request, request.Answered (served requests) :=
  ⟨served_valid requests, fun request => request.answered _⟩

end

open Library.Wire.Reader

/-- The directory service registers, and leaves its address out. -/
def dirRegisters : List UInt8 :=
  Message.serialize ({ name := "dir", port := 20011 } : CRegisterReq)

/-- It is answered with `OK` and is in the list. The second time it is refused, and the list stays
as it is. -/
theorem registry_invariant_dir :
    let request := Request.registerReq "10.0.0.3" dirRegisters
    (CRegisterHandle.registerReq "10.0.0.3" dirRegisters (served [])).2 = CRegisterHandle.ok ∧
      services (served [request]) "dir" = [⟨"dir", "10.0.0.3", 20011⟩] ∧
      Valid (served [request]) ∧
      (CRegisterHandle.registerReq "10.0.0.3" dirRegisters (served [request])).2 ≠
        CRegisterHandle.ok ∧
      registered (served [request, request]) = registered (served [request]) := by
  intro request
  have accepted : (CRegisterHandle.registerReq "10.0.0.3" dirRegisters (served [])).2 =
      CRegisterHandle.ok := by decide +kernel
  have list : services (served [request]) "dir" = [⟨"dir", "10.0.0.3", 20011⟩] := by decide +kernel
  have refused : (CRegisterHandle.registerReq "10.0.0.3" dirRegisters (served [request])).2 ≠
      CRegisterHandle.ok := by decide +kernel
  obtain ⟨valid, answered⟩ := registry_invariant [request]
  exact ⟨accepted, list, valid, refused, ((answered request).2.2.resolve_left refused).2⟩

end MicroserviceFramework.Register
