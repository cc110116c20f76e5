import MicroserviceFramework.Config.CConfigClient

/-!
# A configuration that is not of the service's type

`downloadConfigRes` parses the own configuration into the object that the service runs with, and
a parse clears its target before it fails. So what the getters say after a failure is what was
decoded until then, and the file still has the configuration before.
-/

namespace MicroserviceFramework.Config

open Library Library.Wire Platform

/-- The reflection of a message type. A getter that is not of its field's type ends the process,
which is `none`. -/
structure Reflection (M : Type) where
  FieldDescriptor : Type
  findFieldByName : String → Option FieldDescriptor
  getInt32 : M → FieldDescriptor → Option Int32
  getString : M → FieldDescriptor → Option String
  getBool : M → FieldDescriptor → Option Bool

namespace CConfigClient

variable {M : Type} (r : Reflection M)

/-- A field of the running configuration; without one, or for a name that is not a field, a default
is returned. -/
def getField {α : Type} (value : M → r.FieldDescriptor → Option α) (default : α) (key : String)
    (c : CConfigClient M) : Option α :=
  match c.curServiceConfig with
  | none => some default
  | some m =>
    match r.findFieldByName key with
    | none => some default
    | some field => value m field

def getInt (key : String) (c : CConfigClient M) : Option Int32 := getField r r.getInt32 0 key c

def getString (key : String) (c : CConfigClient M) : Option String :=
  getField r r.getString "" key c

def getBool (key : String) (c : CConfigClient M) : Option Bool := getField r r.getBool false key c

end CConfigClient

variable {M : Type}

/-- Two configurations are the same to the getters. -/
def Reflection.Agree (r : Reflection M) (m m' : M) : Prop :=
  ∀ key, ∀ field ∈ r.findFieldByName key, r.getInt32 m field = r.getInt32 m' field ∧
    r.getString m field = r.getString m' field ∧ r.getBool m field = r.getBool m' field

namespace CConfigClient

variable (r : Reflection M) (codec : Codec M)

/-- The getters return what they returned, and the file is as it was. -/
structure Unchanged (c c' : CConfigClient M) : Prop where
  getInt : ∀ key, c'.getInt r key = c.getInt r key
  getString : ∀ key, c'.getString r key = c.getString r key
  getBool : ∀ key, c'.getBool r key = c.getBool r key
  cache : c'.cache = c.cache

variable {r codec} {c c' : CConfigClient M}

theorem Unchanged.of_eq (running : c'.curServiceConfig = c.curServiceConfig)
    (cache : c'.cache = c.cache) : Unchanged r c c' := by
  constructor
  all_goals first | exact cache | skip
  all_goals
    intro key
    simp only [CConfigClient.getInt, CConfigClient.getString, CConfigClient.getBool, getField,
      running]

theorem unchanged_iff {m m' : M} (running : c.curServiceConfig = some m)
    (running' : c'.curServiceConfig = some m') (cache : c'.cache = c.cache) :
    Unchanged r c c' ↔ r.Agree m' m := by
  constructor
  · intro same key field found
    have int := same.getInt key
    have string := same.getString key
    have bool := same.getBool key
    simp only [CConfigClient.getInt, CConfigClient.getString, CConfigClient.getBool, getField,
      running, running', Option.mem_def.mp found] at int string bool
    exact ⟨int, string, bool⟩
  · intro agree
    refine ⟨fun key => ?_, fun key => ?_, fun key => ?_, cache⟩
    all_goals
      simp only [CConfigClient.getInt, CConfigClient.getString, CConfigClient.getBool, getField,
        running, running']
      rcases found : r.findFieldByName key with _ | field
      · rfl
    · exact (agree key field found).1
    · exact (agree key field found).2.1
    · exact (agree key field found).2.2

/-- What becomes of the client when its own configuration does not parse. -/
theorem downloadConfigRes_rejected [Protobuf] {msg : List UInt8} {conf : CConfig} {left : M}
    (parsed : Message.parse msg = (true, conf)) (own : OwnKey conf c)
    (rejected : codec.parse conf.privatePb = (false, left)) (opened : Bool) :
    (c.downloadConfigRes codec msg opened).cache = c.cache ∧
      (c.downloadConfigRes codec msg opened).curServiceConfig =
        if c.localPort ≤ 0 then c.curServiceConfig else c.curServiceConfig.map fun _ => left := by
  unfold downloadConfigRes
  rw [parsed]
  dsimp only
  by_cases no_port : c.localPort ≤ 0
  · rw [if_pos (.inl no_port), if_pos no_port]
    exact ⟨rfl, rfl⟩
  rw [if_neg no_port]
  rcases running : c.curServiceConfig with _ | m
  · rw [if_pos (.inr rfl)]
    exact ⟨rfl, rfl⟩
  · unfold OwnKey at own
    rw [if_neg (by simp [no_port]), if_neg (not_not.mpr own), rejected]
    exact ⟨rfl, rfl⟩

/-- With a port of its own and a configuration, a service gets the rest of what was decoded. -/
theorem unchanged_rejected_iff [Protobuf] {msg : List UInt8} {conf : CConfig} {left cur : M}
    (parsed : Message.parse msg = (true, conf)) (own : OwnKey conf c)
    (rejected : codec.parse conf.privatePb = (false, left)) (opened : Bool)
    (port : ¬c.localPort ≤ 0) (running : c.curServiceConfig = some cur) :
    Unchanged r c (c.downloadConfigRes codec msg opened) ↔ r.Agree left cur := by
  obtain ⟨cache, after⟩ := downloadConfigRes_rejected parsed own rejected opened
  rw [if_neg port, running] at after
  exact unchanged_iff running after cache

/-- The client with another configuration. -/
def runningWith (c : CConfigClient M) (cur : M) : CConfigClient M :=
  { c with curServiceConfig := some cur }

/-- A rejected configuration changes nothing in a service that downloads none or runs without one.
In a service that downloads its own, no rejected one is harmless to all configurations it can run
with, unless the getters cannot tell any two of them apart. -/
theorem rejected_config_iff [Protobuf] (r : Reflection M) (codec : Codec M)
    (c : CConfigClient M) {msg : List UInt8} {conf : CConfig} {left : M}
    (parsed : Message.parse msg = (true, conf))
    (own : OwnKey conf c) (rejected : codec.parse conf.privatePb = (false, left)) (opened : Bool) :
    (c.localPort ≤ 0 ∨ c.curServiceConfig = none →
      Unchanged r c (c.downloadConfigRes codec msg opened)) ∧
    ((∀ cur, Unchanged r (c.runningWith cur)
        ((c.runningWith cur).downloadConfigRes codec msg opened)) ↔
      c.localPort ≤ 0 ∨ ∀ m m' : M, r.Agree m m') := by
  have kept (c : CConfigClient M) (own : OwnKey conf c)
      (none_here : c.localPort ≤ 0 ∨ c.curServiceConfig = none) :
      Unchanged r c (c.downloadConfigRes codec msg opened) := by
    obtain ⟨cache, after⟩ := downloadConfigRes_rejected parsed own rejected opened
    refine .of_eq ?_ cache
    rw [after]
    rcases none_here with no_port | not_running
    · rw [if_pos no_port]
    · rw [not_running]
      exact ite_self none
  refine ⟨kept c own, ?_⟩
  by_cases port : c.localPort ≤ 0
  · exact iff_of_true (fun cur => kept (c.runningWith cur) own (.inl port)) (.inl port)
  have each (cur : M) : Unchanged r (c.runningWith cur)
      ((c.runningWith cur).downloadConfigRes codec msg opened) ↔ r.Agree left cur :=
    unchanged_rejected_iff (c := c.runningWith cur) parsed own rejected opened port rfl
  simp only [each, port, false_or]
  constructor
  · intro agree m m' key field found
    obtain ⟨int, string, bool⟩ := agree m key field found
    obtain ⟨int', string', bool'⟩ := agree m' key field found
    exact ⟨int.symm.trans int', string.symm.trans string', bool.symm.trans bool'⟩
  · exact fun agree cur => agree left cur

/-! ## The directory service -/

open Library.Wire.Reader

def reflection : Reflection CDirConfig where
  FieldDescriptor := Unit
  findFieldByName key := if key = "root" then some () else none
  getInt32 _ _ := none
  getString m _ := some m.root
  getBool _ _ := none

/-- The directory service on port 80, with the root that it runs with. -/
def directoryAt (root : String) : CConfigClient CDirConfig where
  localIp := "10.0.0.1"
  localPort := 80
  curServiceConfig := some { root := root }
  cache := some (Message.serialize { root := root : CDirConfig })

/-- Its configuration, cut off after the length of the root. -/
def truncated (port : Int32) : CConfig where
  serviceIp := "10.0.0.1"
  servicePort := port
  privatePb := [0x0a, 5]

/-- Without a port of its own, the directory service goes on with its root; with one, it does not
go on with every root. -/
theorem rejected_config_directory :
    Unchanged reflection { directoryAt "/srv" with localPort := 0 }
      ({ directoryAt "/srv" with localPort := 0 }.downloadConfigRes Message.codec
        (Message.serialize (truncated 0)) true) ∧
    ¬∀ cur, Unchanged reflection ((directoryAt "/srv").runningWith cur)
      (((directoryAt "/srv").runningWith cur).downloadConfigRes Message.codec
        (Message.serialize (truncated 80)) true) := by
  have rejected (port : Int32) :
      Message.codec.parse (truncated port).privatePb = (false, ({} : CDirConfig)) := by
    have cut : Message.codec.parse [0x0a, 5] = (false, ({} : CDirConfig)) := by decide +kernel
    exact cut
  constructor
  · have parsed : Message.parse (Message.serialize (truncated 0)) = (true, truncated 0) := by
      decide +kernel
    have own : OwnKey (truncated 0) { directoryAt "/srv" with localPort := 0 } := by decide +kernel
    exact (rejected_config_iff reflection Message.codec _ parsed own (rejected 0) true).1
      (.inl (by decide))
  · have parsed : Message.parse (Message.serialize (truncated 80)) = (true, truncated 80) := by
      decide +kernel
    have own : OwnKey (truncated 80) (directoryAt "/srv") := by decide +kernel
    rw [(rejected_config_iff reflection Message.codec _ parsed own (rejected 80) true).2]
    rintro (no_port | agree)
    · exact absurd no_port (by decide)
    · have same := (agree { root := "/srv" } { root := "/tmp" } "root" () rfl).2.1
      exact absurd same (by decide)

/-- The root of the running service is gone. -/
theorem rejected_config_clears :
    Message.parse (Message.serialize (truncated 80)) = (true, truncated 80) ∧
    OwnKey (truncated 80) (directoryAt "/srv") ∧
    (Message.parse (truncated 80).privatePb : Bool × CDirConfig).1 = false ∧
    ¬Unchanged reflection (directoryAt "/srv") ((directoryAt "/srv").downloadConfigRes
      Message.codec (Message.serialize (truncated 80)) true) := by
  refine ⟨by decide +kernel, by decide +kernel, by decide +kernel, fun same => ?_⟩
  have root := same.getString "root"
  exact absurd root (by decide +kernel)

end CConfigClient

end MicroserviceFramework.Config
