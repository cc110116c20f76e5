import MicroserviceFramework.Config.CConfigHandle
import Mathlib.Logic.Function.Basic

/-!
# The config centre as a map

What the config centre is for: a map from addresses and ports to configurations. When the
statements succeed and addresses can stand in their texts, the table is that map: the rows of a
service are the row of its configuration, or none.
-/

namespace MicroserviceFramework.Config

open Library.Wire Library.Sql Platform
open Auth (cstr cstr_eq_self Plain)

/-! ## The map -/

abbrev Key := String × Int32

inductive Request where
  | upload (clientIp : String) (msg : List UInt8)
  | download (clientIp : String) (msg : List UInt8)
  | delete (msg : List UInt8)

section

variable [Protobuf]

namespace Request

/-- What a request sets: the configuration of a service, or that there is none. -/
def effect : Request → Option (Key × Option CConfig)
  | upload clientIp msg =>
    match Message.parse (M := CConfig) msg with
    | (false, _) => none
    | (true, conf) =>
      let ip := CConfigHandle.fillIp clientIp conf.serviceIp
      if ip = "" then none
      else some ((ip, conf.servicePort), some { conf with serviceIp := ip })
  | download .. => none
  | delete msg =>
    match Message.parse (M := CDownloadconfigReq) msg with
    | (false, _) => none
    | (true, req) =>
      if ConfigDAO.InRange req.serviceIp req.servicePort then
        some ((req.serviceIp, req.servicePort), none)
      else none

/-- The request is handled, with all statements succeeding. -/
def handle (r : Request) (dao : ConfigDAO) : ConfigDAO :=
  match r with
  | upload clientIp msg => (CConfigHandle.uploadConfig .exact {} clientIp msg dao).1
  | download .. => dao
  | delete msg => (CConfigHandle.deleteConfig .exact {} msg dao).1

end Request

/-- The table after some requests. -/
def served (history : List Request) : ConfigDAO := history.foldl (fun dao r => r.handle dao) {}

/-- The configuration of the last upload for a service that no deletion of it follows. -/
def lastUpload (history : List Request) (key : Key) : Option CConfig :=
  ((history.filterMap Request.effect).filter (·.1 = key)).getLast?.bind (·.2)

/-- An address that has no NUL, quote or backslash. -/
def Clean (ip : String) : Prop :=
  Char.ofNat 0 ∉ ip.toList ∧ quote ∉ ip.toList ∧ backslash ∉ ip.toList

instance (ip : String) : Decidable (Clean ip) := inferInstanceAs (Decidable (_ ∧ _))

/-- The address in a request is clean, and a configuration fits into its column. -/
def Request.Clean : Request → Prop
  | upload clientIp msg =>
    match Message.parse (M := CConfig) msg with
    | (false, _) => True
    | (true, conf) =>
      let ip := CConfigHandle.fillIp clientIp conf.serviceIp
      Config.Clean ip ∧ (Message.serialize { conf with serviceIp := ip }).length < 2 ^ 31
  | download clientIp msg =>
    match Message.parse (M := CDownloadconfigReq) msg with
    | (false, _) => True
    | (true, req) => Config.Clean (CConfigHandle.fillIp clientIp req.serviceIp)
  | delete msg =>
    match Message.parse (M := CDownloadconfigReq) msg with
    | (false, _) => True
    | (true, req) => Config.Clean req.serviceIp

/-- What a request does to the map. -/
def Request.apply (store : Key → Option CConfig) (r : Request) : Key → Option CConfig :=
  match r.effect with
  | none => store
  | some (key, conf) => Function.update store key conf

/-- The map after some requests. -/
def stored (history : List Request) : Key → Option CConfig :=
  history.foldl Request.apply fun _ => none

theorem stored_eq_lastUpload (history : List Request) : stored history = lastUpload history := by
  induction history using List.reverseRecOn with
  | nil => rfl
  | append_singleton history r ih =>
    funext key
    have step : stored (history ++ [r]) = r.apply (stored history) := by simp [stored]
    rw [step, ih, Request.apply]
    cases effect : r.effect with
    | none => simp [lastUpload, effect]
    | some change =>
      obtain ⟨own, conf⟩ := change
      by_cases same : own = key
      · simp [lastUpload, effect, same]
      · simp [lastUpload, effect, same, Ne.symm same]

end

/-! ## The table is the map -/

/-- The rows of a service are the row of its configuration, or none. -/
structure Refines (dao : ConfigDAO) (store : Key → Option CConfig) : Prop where
  mysql : dao.mysql = true
  rows : ∀ ip port, dao.rows.filter (ConfigRow.isOf .exact ip port) =
    (store (ip, port)).toList.map ConfigRow.ofConfig
  fits : ∀ key conf, store key = some conf → (Message.serialize conf).length < 2 ^ 31

theorem Clean.plain {ip : String} (clean : Clean ip) : Plain ip :=
  ⟨clean.1, .of_not_mem clean.2.1 clean.2.2⟩

theorem Clean.cstr {ip : String} (clean : Clean ip) : cstr ip = ip := cstr_eq_self clean.1

namespace ConfigRow

theorem isOf_exact {ip : String} {port : Int32} {row : ConfigRow} :
    row.isOf .exact ip port ↔ row.service_ip = ip ∧ row.service_port = port := by
  simp [isOf, Collation.exact]

theorem isOf_ofConfig {conf : CConfig} (clean : Clean conf.serviceIp) (ip : String) (port : Int32) :
    (ofConfig conf).isOf .exact ip port = decide ((conf.serviceIp, conf.servicePort) = (ip, port)) := by
  simp [isOf, Collation.exact, ofConfig, clean.cstr]

/-- A row is one of one service only. -/
theorem isOf_other {ip ip' : String} {port port' : Int32} {row : ConfigRow}
    (other : (ip, port) ≠ (ip', port')) (own : row.isOf .exact ip port) :
    row.isOf .exact ip' port' = false := by
  obtain ⟨rfl, rfl⟩ := isOf_exact.mp own
  rw [Bool.eq_false_iff, Ne, isOf_exact]
  exact fun both => other (by rw [both.1, both.2])

end ConfigRow

/-- Replacing the rows of a key leaves the rows of another key as they were. -/
theorem filter_map_of_disjoint {p q : ConfigRow → Bool} {new : ConfigRow}
    (disjoint : ∀ r, p r → q r = false) (other : q new = false) (rows : List ConfigRow) :
    (rows.map fun r => if p r then new else r).filter q = rows.filter q := by
  induction rows with
  | nil => rfl
  | cons r rows ih =>
    by_cases own : p r
    · simp [own, other, disjoint r own, ih]
    · simp [own, List.filter_cons, ih]

theorem filter_map_same {p : ConfigRow → Bool} {new : ConfigRow} (own : p new = true)
    (rows : List ConfigRow) :
    (rows.map fun r => if p r then new else r).filter p = (rows.filter p).map fun _ => new := by
  induction rows with
  | nil => rfl
  | cons r rows ih =>
    by_cases here : p r
    · simp [here, own, ih]
    · simp [here, ih]

namespace Refines

variable {dao : ConfigDAO} {store : Key → Option CConfig}

theorem empty : Refines {} fun _ => none := by
  refine ⟨rfl, fun _ _ => rfl, ?_⟩
  intro key conf impossible
  cases impossible

/-- The rows of a service after an upload, whichever way it went. -/
theorem rows_uploadConfig (refines : Refines dao store) {conf : CConfig}
    (clean : Clean conf.serviceIp) (nonempty : conf.serviceIp ≠ "") (ip : String) (port : Int32) :
    (dao.uploadConfig .exact {} conf).2.rows.filter (ConfigRow.isOf .exact ip port) =
      if (conf.serviceIp, conf.servicePort) = (ip, port) then [.ofConfig conf]
      else dao.rows.filter (ConfigRow.isOf .exact ip port) := by
  have own := ConfigRow.isOf_ofConfig clean
  have upload := dao.uploadConfig_plain .exact {} clean.plain rfl
  simp only [refines.mysql, nonempty, or_self, not_true_eq_false, if_false, true_and, if_true,
    ConfigDAO.insertBin] at upload
  rw [upload]
  split
  next there =>
    split
    next same =>
      obtain ⟨rfl, rfl⟩ := Prod.mk.inj same
      obtain ⟨row, mem, isOf⟩ := there
      have found := refines.rows conf.serviceIp conf.servicePort
      have some_row : row ∈ dao.rows.filter (ConfigRow.isOf .exact conf.serviceIp conf.servicePort) :=
        List.mem_filter.mpr ⟨mem, isOf⟩
      rw [found] at some_row
      obtain ⟨c, kept, -⟩ := List.mem_map.mp some_row
      rw [filter_map_same (by simp [own]), found, Option.mem_toList.mp kept]
      rfl
    next other =>
      apply filter_map_of_disjoint
      · exact fun row isOf => ConfigRow.isOf_other other isOf
      · simpa [own] using other
  next absent =>
    rw [List.filter_append]
    split
    next same =>
      obtain ⟨rfl, rfl⟩ := Prod.mk.inj same
      have none_there : dao.rows.filter (ConfigRow.isOf .exact conf.serviceIp conf.servicePort) = [] := by
        simpa [List.filter_eq_nil_iff] using absent
      simp [none_there, own]
    next other => simp [own, other]

theorem uploadConfig (refines : Refines dao store) {conf : CConfig} (clean : Clean conf.serviceIp)
    (nonempty : conf.serviceIp ≠ "") (fits : (Message.serialize conf).length < 2 ^ 31) :
    Refines (dao.uploadConfig .exact {} conf).2
      (Function.update store (conf.serviceIp, conf.servicePort) (some conf)) := by
  refine ⟨?_, fun ip port => ?_, fun key c found => ?_⟩
  · rw [ConfigDAO.uploadConfig_mysql]
    exact refines.mysql
  · rw [refines.rows_uploadConfig clean nonempty, refines.rows]
    by_cases same : (conf.serviceIp, conf.servicePort) = (ip, port)
    · simp [same]
    · simp [same, Ne.symm same]
  · by_cases same : key = (conf.serviceIp, conf.servicePort)
    · subst same
      simp only [Function.update_self, Option.some.injEq] at found
      exact found ▸ fits
    · rw [Function.update_of_ne same] at found
      exact refines.fits key c found

theorem deleteConfig (refines : Refines dao store) {ip : String} {port : Int32} (clean : Clean ip)
    (range : ConfigDAO.InRange ip port) :
    Refines (dao.deleteConfig .exact {} ip port).2 (Function.update store (ip, port) none) := by
  have deleted := dao.deleteConfig_plain .exact {} clean.plain port
  simp only [refines.mysql, range, and_self, if_true] at deleted
  rw [deleted]
  refine ⟨rfl, fun ip' port' => ?_, fun key c found => ?_⟩
  · rw [List.filter_filter]
    by_cases same : (ip', port') = (ip, port)
    · obtain ⟨rfl, rfl⟩ := Prod.mk.inj same
      simp
    · rw [Function.update_of_ne same, ← refines.rows]
      apply List.filter_congr
      intro row mem
      cases own : row.isOf .exact ip' port' with
      | false => rfl
      | true => simp [ConfigRow.isOf_other same own]
  · by_cases same : key = (ip, port)
    · subst same
      simp at found
    · rw [Function.update_of_ne same] at found
      exact refines.fits key c found

variable [Protobuf]

/-- One request does to the table what it does to the map. -/
theorem handle (refines : Refines dao store) {r : Request} (clean : r.Clean) :
    Refines (r.handle dao) (r.apply store) := by
  cases r with
  | download clientIp msg => exact refines
  | upload clientIp msg =>
    simp only [Request.Clean] at clean
    simp only [Request.handle, Request.apply, Request.effect, CConfigHandle.uploadConfig]
    rcases parsed : Message.parse (M := CConfig) msg with ⟨ok, conf⟩
    rw [parsed] at clean
    cases ok with
    | false => exact refines
    | true =>
      by_cases empty : CConfigHandle.fillIp clientIp conf.serviceIp = ""
      · simp only [empty, if_true]
        have refused : dao.uploadConfig .exact {} { conf with serviceIp := "" } = (false, dao) := by
          simp [ConfigDAO.uploadConfig]
        rw [refused]
        exact refines
      · simp only [empty, if_false]
        let filled : CConfig :=
          { conf with serviceIp := CConfigHandle.fillIp clientIp conf.serviceIp }
        have address : Config.Clean filled.serviceIp := clean.1
        have uploaded := refines.uploadConfig address empty clean.2
        split
        all_goals
          next result => rw [result] at uploaded; exact uploaded
  | delete msg =>
    simp only [Request.Clean] at clean
    simp only [Request.handle, Request.apply, Request.effect, CConfigHandle.deleteConfig]
    rcases parsed : Message.parse (M := CDownloadconfigReq) msg with ⟨ok, req⟩
    rw [parsed] at clean
    cases ok with
    | false => exact refines
    | true =>
      simp only [Clean.cstr clean]
      by_cases range : ConfigDAO.InRange req.serviceIp req.servicePort
      · simp only [range, if_true]
        have deleted := refines.deleteConfig clean range
        split
        all_goals
          next result => rw [result] at deleted; exact deleted
      · simp only [range, if_false]
        have refused : dao.deleteConfig .exact {} req.serviceIp req.servicePort = (false, dao) := by
          simp [ConfigDAO.deleteConfig, range]
        rw [refused]
        exact refines

theorem served {history : List Request} (clean : ∀ r ∈ history, r.Clean) :
    Refines (served history) (stored history) := by
  induction history using List.reverseRecOn with
  | nil => exact .empty
  | append_singleton history r ih =>
    have before := ih fun r mem => clean r (List.mem_append_left _ mem)
    have step := before.handle (clean r (by simp))
    simpa [Config.served, stored] using step

/-- A download looks its key up in the map. -/
theorem downloadConfig (refines : Refines dao store) {ip : String} {port : Int32} (clean : Clean ip)
    (range : ConfigDAO.InRange ip port) :
    dao.downloadConfig .exact {} ip port =
      (store (ip, port)).getD { serviceIp := ip, servicePort := port } := by
  have rows := dao.getResult_plain .exact {} clean.plain port .selectPrivatePb
  rw [if_pos rfl, refines.rows] at rows
  cases found : store (ip, port) with
  | none => simp [ConfigDAO.downloadConfig, refines.mysql, range, rows, found]
  | some conf =>
    have parsed := Message.parse_serialize (refines.fits _ _ found)
    simp [ConfigDAO.downloadConfig, refines.mysql, range, rows, found, ConfigRow.ofConfig, parsed]

end Refines

/-! ## Every history of requests -/

/-- A download gives the configuration of the last upload for its key, and requests for other
keys do not matter. -/
theorem downloadConfig_eq_lastUpload [Protobuf] (history : List Request)
    (clean : ∀ r ∈ history, r.Clean) {ip : String} {port : Int32} (address : Clean ip)
    (range : ConfigDAO.InRange ip port) :
    (served history).downloadConfig .exact {} ip port =
        (lastUpload history (ip, port)).getD { serviceIp := ip, servicePort := port } ∧
      ∀ r : Request, r.Clean → (∀ change, r.effect = some change → change.1 ≠ (ip, port)) →
        (served (history ++ [r])).downloadConfig .exact {} ip port =
          (served history).downloadConfig .exact {} ip port := by
  have refines := Refines.served clean
  have answer := refines.downloadConfig address range
  constructor
  · rw [answer, stored_eq_lastUpload]
  · intro r rClean other
    have after : Refines (served (history ++ [r])) (r.apply (stored history)) := by
      simpa [served] using refines.handle rClean
    have same : r.apply (stored history) (ip, port) = stored history (ip, port) := by
      unfold Request.apply
      cases effect : r.effect with
      | none => rfl
      | some change => exact Function.update_of_ne (Ne.symm (other change effect)) _ _
    rw [after.downloadConfig address range, answer, same]

open Library.Wire.Reader

/-- An upload by the service on port 80 of 10.0.0.1, which leaves its address out. -/
def ownUpload (b : UInt8) : Request :=
  .upload "10.0.0.1" (Message.serialize { servicePort := 80, privatePb := [b] : CConfig })

theorem ownUpload_clean (b : UInt8) : (ownUpload b).Clean := by
  have sent : (Message.serialize { servicePort := 80, privatePb := [b] : CConfig }).length = 5 := rfl
  have kept : (Message.serialize
      { servicePort := 80, serviceIp := "10.0.0.1", privatePb := [b] : CConfig }).length = 15 := rfl
  have parsed := Message.parse_serialize (m := { servicePort := 80, privatePb := [b] : CConfig })
    (by omega)
  simp only [ownUpload, Request.Clean, parsed]
  exact ⟨by decide, lt_of_eq_of_lt kept (by decide)⟩

theorem downloadConfig_second_upload :
    (served [ownUpload 1, ownUpload 2]).downloadConfig .exact {} "10.0.0.1" 80 =
      { serviceIp := "10.0.0.1", servicePort := 80, privatePb := [2] } := by
  have clean : ∀ r ∈ [ownUpload 1, ownUpload 2], r.Clean := by
    simp [ownUpload_clean]
  exact (downloadConfig_eq_lastUpload _ clean (by decide) (by decide)).1.trans (by decide)

end MicroserviceFramework.Config
