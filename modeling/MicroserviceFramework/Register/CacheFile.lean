import MicroserviceFramework.Register.Discovery

/-!
# The file behind the cache of services

Every response that changes the services in memory is written to a file, and `getAllService` reads
the file back before it hands the services out. The file may not open for writing, or for reading,
and there may be one from an earlier run.
-/

namespace MicroserviceFramework.Register

open Library Platform

namespace CRegisterClient

/-- The file, if there is one, has the services that are in memory. -/
def InStep (c : CRegisterClient) : Prop :=
  ∀ saved ∈ c.file, registered (some saved) = registered c.pbServiceMap

theorem inStep_save (c : CRegisterClient) : (c.save true).InStep := by
  intro saved mem
  have written : c.pbServiceMap = some saved := mem
  rw [save_pbServiceMap, written]

/-- A response that is taken over brings the file into step, if the file opens. One that changes
nothing leaves both as they are. -/
theorem inStep_getServiceRes {c : CRegisterClient} (inStep : c.InStep) (map : CServiceMap) :
    (c.getServiceRes (true, map) true).InStep := by
  rcases c.getServiceRes_cases map true with same | ⟨map', saved⟩
  · rwa [same]
  · rw [saved]
    exact inStep_save _

/-- What is in memory after a load is what the file has, if it opens. -/
theorem registered_loadLocalFileIf (c : CRegisterClient) (opened : Bool) :
    registered (c.loadLocalFileIf opened).pbServiceMap =
      if opened then (c.file.map (registered ∘ some)).getD (registered c.pbServiceMap)
      else registered c.pbServiceMap := by
  unfold loadLocalFileIf
  cases opened with
  | false => rfl
  | true =>
    rw [if_pos rfl, if_pos rfl, loadLocalFile]
    cases c.file with
    | none => rfl
    | some saved => rfl

/-- A load leaves the file and the memory in step, if they were or the file opens. -/
theorem inStep_loadLocalFileIf {c : CRegisterClient} {opened : Bool}
    (inStep : opened = false → c.InStep) : (c.loadLocalFileIf opened).InStep := by
  intro saved mem
  rw [registered_loadLocalFileIf]
  cases opened with
  | false => exact inStep rfl saved mem
  | true =>
    have there : c.file = some saved := by
      rw [← mem, loadLocalFileIf, if_pos rfl, loadLocalFile]
      cases c.file <;> rfl
    rw [if_pos rfl, there]
    rfl

end CRegisterClient

/-! ## Runs -/

structure CacheFile where
  client : CRegisterClient
  /-- The lists that were loaded at the start. -/
  loaded : String → Option CServiceList
  /-- The responses so far. -/
  received : List CServiceMap := []

namespace CacheFile

/-- `opened` is whether the file opens, for writing after a response and for reading in
`getAllService`. -/
inductive Event where
  | getServiceRes (map : { map : CServiceMap // Discovery.Proper (.getServiceRes map) })
      (opened : Bool)
  | getAllService (opened : Bool)

def step (s : CacheFile) : Event → Option CacheFile
  | .getServiceRes map opened =>
    some { s with
      client := s.client.getServiceRes (true, map) opened
      received := s.received ++ [map.val] }
  | .getAllService opened => some { s with client := s.client.getAllServiceIf opened }

def machine : Machine CacheFile Event := ⟨step⟩

def start (client : CRegisterClient) (serviceName : Option String) (port : Int32)
    (ip : Option String) (opened : Bool) : CacheFile where
  client := client.registerServer serviceName port ip opened
  loaded := registered (client.registerServer serviceName port ip opened).pbServiceMap

/-- What the responses make of the lists that were loaded. -/
def lists (s : CacheFile) : String → Option CServiceList := s.received.foldl taken s.loaded

/-- `getAllService` hands out what the responses make of the start. -/
def Coherent (s : CacheFile) : Event → Prop
  | .getAllService opened =>
    registered (s.client.getAllServiceIf opened).pbClientMap = s.lists
  | .getServiceRes .. => True

/-- A file that `getAllService` can read has the services that are in memory. -/
def ReadsInStep (s : CacheFile) : Event → Prop
  | .getAllService opened => opened = true → s.client.InStep
  | .getServiceRes .. => True

/-- The services in memory are what the responses make of the start. -/
def UpToDate (s : CacheFile) : Prop := registered s.client.pbServiceMap = s.lists

theorem UpToDate.coherent_iff {s : CacheFile} (upToDate : s.UpToDate) (event : Event) :
    s.Coherent event ↔ s.ReadsInStep event := by
  cases event with
  | getServiceRes map opened => exact Iff.rfl
  | getAllService opened =>
    change registered (s.client.loadLocalFileIf opened).pbServiceMap = s.lists ↔
      (opened = true → s.client.InStep)
    rw [CRegisterClient.registered_loadLocalFileIf, ← upToDate, CRegisterClient.InStep]
    cases opened with
    | false => simp
    | true =>
      rw [if_pos rfl]
      rcases s.client.file with _ | saved
      · simp
      · simp

theorem machine_preserves_upToDate : machine.Preserves Coherent UpToDate := by
  intro s event s' upToDate coherent step
  cases event with
  | getServiceRes map opened =>
    obtain rfl := Option.some.inj step
    change registered (s.client.getServiceRes (true, map.val) opened).pbServiceMap = _
    rw [CRegisterClient.registered_getServiceRes _ map.property, upToDate, lists, lists,
      List.foldl_append]
    rfl
  | getAllService opened =>
    obtain rfl := Option.some.inj step
    exact coherent

theorem UpToDate.start (client : CRegisterClient) (serviceName : Option String) (port : Int32)
    (ip : Option String) (opened : Bool) :
    (start client serviceName port ip opened).UpToDate := rfl

/-- `getAllService` hands out what the responses make of the start along a run exactly if whenever it
reads the file, the file has the services that are in memory. -/
theorem coherent_iff_readsInStep (client : CRegisterClient) (serviceName : Option String)
    (port : Int32) (ip : Option String) (opened : Bool) (events : List Event) :
    machine.Along Coherent (start client serviceName port ip opened) events ↔
      machine.Along ReadsInStep (start client serviceName port ip opened) events :=
  machine.along_congr_while machine_preserves_upToDate (fun _ event inv => inv.coherent_iff event)
    (.start client serviceName port ip opened) events

/-- The file opens for writing. -/
def Writable : Event → Prop
  | .getServiceRes _ opened => opened = true
  | .getAllService _ => True

theorem machine_preserves_inStep :
    machine.Preserves (fun _ event => Writable event) (fun s => s.client.InStep) := by
  intro s event s' inStep writable step
  cases event with
  | getServiceRes map opened =>
    obtain rfl := Option.some.inj step
    obtain rfl : opened = true := writable
    exact CRegisterClient.inStep_getServiceRes inStep map
  | getAllService opened =>
    obtain rfl := Option.some.inj step
    exact CRegisterClient.inStep_loadLocalFileIf fun _ => inStep

/-- The file stays in step if it could be read at the start and always opens for writing. -/
theorem readsInStep_of_writable (client : CRegisterClient) (serviceName : Option String)
    (port : Int32) (ip : Option String) {events : List Event}
    (writable : ∀ event ∈ events, Writable event) :
    machine.Along ReadsInStep (start client serviceName port ip true) events := by
  refine machine.along_of_invariant machine_preserves_inStep (fun s event inStep _ => ?_)
    (CRegisterClient.inStep_loadLocalFileIf fun closed => nomatch closed)
    (machine.along_of_mem writable _)
  cases event with
  | getServiceRes map opened => trivial
  | getAllService opened => exact fun _ => inStep

/-! ## A service that is gone -/

/-- The registry has one service, and later none. -/
def all (services : CServiceList) : { map : CServiceMap // Discovery.Proper (.getServiceRes map) } :=
  ⟨{ serviceMap := .insert "dir" services ∅, type := .ALL }, .inl rfl⟩

def dir : CService where
  name := "dir"
  ip := "127.0.0.1"
  port := 20011

/-- The file cannot be written when the service is gone. -/
def unwritten : List Event := [.getServiceRes (all [dir]) true, .getServiceRes (all []) false]

/-- The service is back, with what the file still has. So is one that an earlier run left in a file
that could not be read at the start. -/
theorem older_map_returned :
    ¬machine.Along Coherent (start {} (some "test") 20020 none true)
      (unwritten ++ [.getAllService true]) ∧
    ¬machine.Along Coherent (start { file := some (all [dir]).val } (some "test") 20020 none false)
      ([] ++ [.getAllService true]) := by
  constructor
  · intro coherent
    have trace : (machine.run (start {} (some "test") 20020 none true) unwritten).map (fun s =>
        (registered (s.client.getAllServiceIf true).pbClientMap "dir", s.lists "dir")) =
        some (some [dir], some []) := by decide +kernel
    obtain ⟨s, reached, values⟩ := Option.map_eq_some_iff.mp trace
    obtain ⟨returned, latest⟩ := Prod.mk.inj values
    have same := congrFun (machine.along_last coherent reached) "dir"
    rw [returned, latest] at same
    exact absurd same (by decide)
  · intro coherent
    have same := congrFun (machine.along_last coherent rfl) "dir"
    exact absurd same (by decide +kernel)

end CacheFile

end MicroserviceFramework.Register
