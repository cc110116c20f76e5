import MicroserviceFramework.Config.CConfigClient
import MicroserviceFramework.Library.Conversation

/-!
# What an edit starts from

To edit a configuration, `ConfigEdit::loadConfig` downloads it and takes what `getConfig` finds
within a second. Downloads are entered in `configMap` and never taken out again, so from the second
download of a configuration on `getConfig` finds the last one before it finds the new one. Others
change the table of the config centre in the meantime.
-/

namespace MicroserviceFramework.Config

open Library Library.Wire Platform

structure EditSession (M : Type) where
  client : CConfigClient M := {}
  /-- The table of the config centre. -/
  dao : ConfigDAO := {}
  /-- The download requests of the client, and the answers. -/
  link : Conversation (List UInt8) CConfig := {}
  /-- For each key, up to which request the server had come when it was last asked for. -/
  since : String → Option Nat := fun _ => none

namespace EditSession

section

variable [Protobuf] {M : Type} (collation : Collation) (codec : Codec M) (clientIp : String)

inductive Event where
  /-- `sent` is whether the request gets to the server. -/
  | downloadConfig (ip : String) (port : Int32) (sent : Bool)
  /-- A look at the entry, by a call of `getConfig`. -/
  | getConfig (ip : String) (port : Int32)
  /-- An upload or a delete by another client. -/
  | others (call : Call)
  /-- `sent` is whether the answer goes out. -/
  | serve (o : Outcome) (sent : Bool)
  | downloadConfigRes (opened : Bool)

def step (s : EditSession M) : Event → Option (EditSession M)
  | .downloadConfig ip port sent =>
    some { s with
      link := match CConfigClient.downloadConfig ip port with
        | none => s.link
        | some body => s.link.send body sent
      since := Function.update s.since (keyOf ip port.toInt) (some s.link.handled) }
  | .getConfig .. => some s
  | .others call => some { s with dao := call.run collation s.dao }
  | .serve o sent => do
    let link ← s.link.serve fun body =>
      if sent then CConfigHandle.answer collation o clientIp body s.dao else none
    some { s with link := link }
  | .downloadConfigRes opened => do
    let (res, link) ← s.link.receive
    some { s with
      client := s.client.downloadConfigRes codec (Message.serialize res.2) opened
      link := link }

def machine : Machine (EditSession M) Event := ⟨step collation codec clientIp⟩

/-- A client that has just started, with a config centre in any state. -/
def start (client : CConfigClient M) (dao : ConfigDAO) : EditSession M :=
  { client := { client with configMap := fun _ => none }, dao := dao }

/-- The config centre answers so in some state. -/
def ResponseTo (body : List UInt8) (conf : CConfig) : Prop :=
  ∃ o dao, CConfigHandle.answer collation o clientIp body dao = some conf

/-- What `getConfig` finds is the answer to a request that the server took after the configuration
was last asked for. -/
def Fresh (s : EditSession M) : Event → Prop
  | .getConfig ip port => ∀ n conf, s.since (keyOf ip port.toInt) = some n →
      s.client.configMap (keyOf ip port.toInt) = some conf →
        ∃ k body, n ≤ k ∧ (k, conf) ∈ s.link.arrived ∧ s.link.made[k]? = some body ∧
          ResponseTo collation clientIp body conf
  | _ => True

/-- The key that an answer is entered under. -/
def key (conf : CConfig) : String := keyOf conf.serviceIp conf.servicePort.toInt

/-- If `getConfig` finds anything, an answer with the key has arrived to a request that the server
took after the configuration was last asked for. -/
def Answered (s : EditSession M) : Event → Prop
  | .getConfig ip port => ∀ n, s.since (keyOf ip port.toInt) = some n →
      s.client.configMap (keyOf ip port.toInt) ≠ none →
        ∃ k conf, n ≤ k ∧ (k, conf) ∈ s.link.arrived ∧ key conf = keyOf ip port.toInt
  | _ => True

structure Inv (s : EditSession M) : Prop where
  inOrder : s.link.InOrder
  genuine : s.link.Genuine (ResponseTo collation clientIp)
  tabled : s.link.Tabled (fun conf => some (key conf)) s.client.configMap

variable {collation codec clientIp} {s s' : EditSession M}

theorem Inv.start (client : CConfigClient M) (dao : ConfigDAO) :
    (start client dao).Inv collation clientIp where
  inOrder := .init
  genuine := .init
  tabled _ _ entry := by cases entry

theorem machine_preserves_inv :
    (machine collation codec clientIp).Preserves (fun _ _ => True) (Inv collation clientIp) := by
  intro s event s' inv _ step
  cases event with
  | downloadConfig ip port sent =>
    obtain rfl := Option.some.inj step
    rcases request : CConfigClient.downloadConfig ip port with _ | body
    · exact ⟨inv.inOrder, inv.genuine, inv.tabled⟩
    · exact ⟨inv.inOrder.send _ _, inv.genuine.send _ _, inv.tabled.of_arrived rfl⟩
  | getConfig ip port =>
    obtain rfl := Option.some.inj step
    exact inv
  | others call =>
    obtain rfl := Option.some.inj step
    exact ⟨inv.inOrder, inv.genuine, inv.tabled⟩
  | serve o sent =>
    obtain ⟨link, served, step⟩ := Option.bind_eq_some_iff.mp step
    obtain rfl := Option.some.inj step
    have ordered := inv.inOrder.serve served
    have genuine : link.Genuine (ResponseTo collation clientIp) := by
      refine inv.genuine.serve (fun body conf answered => ?_) served
      split at answered
      · exact ⟨o, s.dao, answered⟩
      · cases answered
    obtain ⟨k, ks, body, -, -, rfl⟩ := Conversation.serve_eq_some.mp served
    exact ⟨ordered, genuine, inv.tabled.of_arrived rfl⟩
  | downloadConfigRes opened =>
    obtain ⟨⟨r, link⟩, received, step⟩ := Option.bind_eq_some_iff.mp step
    obtain rfl := Option.some.inj step
    have genuine := inv.genuine.receive received
    obtain ⟨rs, responses, -⟩ := Conversation.receive_eq_some.mp received
    have mem : r ∈ s.link.answers := List.mem_append_right _ (responses ▸ List.mem_cons_self)
    obtain ⟨body, -, o, dao, answered⟩ := inv.genuine r mem
    refine ⟨inv.inOrder.receive received, genuine, ?_⟩
    dsimp only
    rw [CConfigClient.downloadConfigRes_configMap codec s.client (CConfigHandle.parse_answer answered)]
    exact inv.tabled.receive inv.inOrder received rfl

/-- An entry is as new as the newest answer with its key. -/
theorem Inv.fresh_iff (inv : s.Inv collation clientIp) (event : Event) :
    s.Fresh collation clientIp event ↔ s.Answered event := by
  cases event with
  | getConfig ip port =>
    constructor
    · intro fresh n asked found
      obtain ⟨conf, entry⟩ := Option.ne_none_iff_exists'.mp found
      obtain ⟨k, body, le, mem, -⟩ := fresh n conf asked entry
      have own := (inv.tabled _ conf entry).1
      exact ⟨k, conf, le, mem, Option.some.inj own⟩
    · intro answered n conf asked entry
      obtain ⟨k, other, le, mem, own⟩ := answered n asked (by simp [entry])
      obtain ⟨-, k', mem', last⟩ := inv.tabled _ conf entry
      obtain ⟨body, there, response⟩ := inv.genuine _ (List.mem_append_left _ mem')
      exact ⟨k', body, Nat.le_trans le (last _ mem (congrArg some own)), mem', there, response⟩
  | _ => exact Iff.rfl

/-- Whatever others do at the config centre, `getConfig` finds fresh configurations along a run
exactly if whenever it finds one an answer to a request after the last `downloadConfig` of it has
arrived. -/
theorem fresh_iff_answered (collation : Collation) (codec : Codec M) (clientIp : String)
    (client : CConfigClient M) (dao : ConfigDAO) (events : List Event) :
    (machine collation codec clientIp).Along (Fresh collation clientIp) (start client dao) events ↔
      (machine collation codec clientIp).Along Answered (start client dao) events :=
  (machine collation codec clientIp).along_congr machine_preserves_inv
    (fun _ event inv => inv.fresh_iff event) (.start client dao) events

/-- A call of `getConfig` finds what one of its looks finds. `states i` is the session at the `i`-th
look, and nothing is asked for meanwhile. -/
theorem getConfig_fresh {states : Nat → EditSession M} {ip : String} {port : Int32}
    {timeoutMs : Int} {n : Nat} {conf : CConfig}
    (inv : ∀ i, (states i).Inv collation clientIp)
    (answered : ∀ i, (states i).Answered (.getConfig ip port))
    (asked : ∀ i, (states i).since (keyOf ip port.toInt) = some n)
    (found : CConfigClient.getConfig ip port.toInt timeoutMs (fun i => (states i).client) =
      some conf) :
    ∃ i k body, n ≤ k ∧ (k, conf) ∈ (states i).link.arrived ∧
      (states i).link.made[k]? = some body ∧ ResponseTo collation clientIp body conf := by
  obtain ⟨i, entry⟩ := CConfigClient.getConfig_found found
  exact ⟨i, ((inv i).fresh_iff _).mpr (answered i) n conf (asked i) entry⟩

end

/-! ## An edit of an old version -/

open Library.Wire.Reader

def version (root : String) : CConfig where
  serviceName := "dir"
  serviceIp := "10.0.0.1"
  servicePort := 80
  privatePb := Message.serialize { root := root : CDirConfig }

/-- An upload of one version of a configuration takes the place of another. -/
theorem uploadConfig_replaces {conf other : CConfig} (plain : Auth.Plain conf.serviceIp)
    (nonempty : conf.serviceIp ≠ "")
    (stored : (ConfigRow.ofConfig other).isOf collation conf.serviceIp conf.servicePort) :
    (({ rows := [.ofConfig other] } : ConfigDAO).uploadConfig collation {} conf).2.rows =
      [.ofConfig conf] := by
  rw [ConfigDAO.uploadConfig_plain collation {} plain _ rfl]
  simp [nonempty, stored]

/-- The client has downloaded the first version. Another uploads the second, and then the client
asks again. -/
def askAgain : List Event :=
  [.others (.upload (version "/old") {}), .downloadConfig "10.0.0.1" 80 true, .serve {} true,
    .downloadConfigRes true, .others (.upload (version "/new") {}),
    .downloadConfig "10.0.0.1" 80 true]

/-- `getConfig` finds the first version, while the second is stored; uploading what it finds stores
the first again. -/
theorem edit_not_fresh :
    (∃ s, (machine .exact (Message.codec : Codec CDirConfig) "10.0.0.2").run (start {} {}) askAgain =
        some s ∧ s.client.configMap (keyOf "10.0.0.1" 80) = some (version "/old") ∧
      s.dao.rows = [.ofConfig (version "/new")] ∧
      (s.dao.uploadConfig .exact {} (version "/old")).2.rows = [.ofConfig (version "/old")]) ∧
    ¬(machine .exact (Message.codec : Codec CDirConfig) "10.0.0.2").Along (Fresh .exact "10.0.0.2")
      (start {} {}) (askAgain ++ [.getConfig "10.0.0.1" 80]) := by
  have trace : ((machine .exact (Message.codec : Codec CDirConfig) "10.0.0.2").run (start {} {})
      askAgain).map (fun s => (s.client.configMap (keyOf "10.0.0.1" 80), s.dao,
        s.since (keyOf "10.0.0.1" 80), s.link.arrived.map (·.1))) =
      some (some (version "/old"), { rows := [.ofConfig (version "/new")] }, some 1, [0]) := by
    decide +kernel
  obtain ⟨s, reached, values⟩ := Option.map_eq_some_iff.mp trace
  simp only [Prod.mk.injEq] at values
  obtain ⟨entry, dao, since, arrived⟩ := values
  have rows : s.dao.rows = [.ofConfig (version "/new")] := by rw [dao]
  have undone : (s.dao.uploadConfig .exact {} (version "/old")).2.rows =
      [.ofConfig (version "/old")] := by
    rw [dao]
    exact uploadConfig_replaces (by decide) (by decide) (by decide)
  refine ⟨⟨s, reached, entry, rows, undone⟩, fun along => ?_⟩
  obtain ⟨k, body, le, mem, -⟩ := Machine.along_last _ along reached 1 _ since entry
  have number := List.mem_map_of_mem (f := Prod.fst) mem
  rw [arrived, List.mem_singleton] at number
  dsimp only at number
  omega

end EditSession

end MicroserviceFramework.Config
