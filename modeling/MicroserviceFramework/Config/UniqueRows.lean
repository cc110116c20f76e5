import MicroserviceFramework.Config.ConfigDAO
import MicroserviceFramework.Library.Machine

/-!
# One row for each service

No index keeps the rows of `cms_service_config` apart: `uploadConfig` looks whether there is a row
before it inserts one. Each statement of a call can fail. A select that fails looks like one that
finds nothing, and a row is inserted beside the old one; apart from that, and from addresses that
change their statement, there is at most one row for each address and port.
-/

namespace MicroserviceFramework.Config

open Library Library.Wire Platform
open Auth (cstr cstr_eq_self Plain)

/-- A call of the data layer, with how its statements come out. -/
inductive Call where
  | upload (conf : CConfig) (o : Outcome)
  | delete (ip : String) (port : Int32) (o : Outcome)

variable (collation : Collation)

def Call.run (dao : ConfigDAO) : Call → ConfigDAO
  | upload conf o => (dao.uploadConfig collation o conf).2
  | delete ip port o => (dao.deleteConfig collation o ip port).2

def calls : Machine ConfigDAO Call where
  step dao call := some (call.run collation dao)

/-- No two rows have the same address and port. -/
def UniqueRows (dao : ConfigDAO) : Prop :=
  dao.rows.Pairwise fun r s => ¬(r.service_ip = s.service_ip ∧ r.service_port = s.service_port)

instance (dao : ConfigDAO) : Decidable (UniqueRows dao) :=
  inferInstanceAs (Decidable (List.Pairwise _ _))

/-- The address can stand in a text; and when the select fails, there is no row to be found or the
insert fails too. -/
def Call.Safe (dao : ConfigDAO) : Call → Prop
  | upload conf o =>
    conf.serviceIp ≠ "" → Plain conf.serviceIp ∧
      (o.select ∨ o.insert = false ∨
        ∀ row ∈ dao.rows, row.isOf collation conf.serviceIp conf.servicePort = false)
  | delete .. => True

instance (dao : ConfigDAO) (call : Call) : Decidable (call.Safe collation dao) :=
  match call with
  | .upload .. => inferInstanceAs (Decidable (_ → _))
  | .delete .. => .isTrue trivial

/-! ## The invariant -/

/-- No two rows are of the same service, as the table compares them. -/
def Apart (dao : ConfigDAO) : Prop :=
  dao.rows.Pairwise fun r s => r.isOf collation s.service_ip s.service_port = false

variable {collation}

theorem Apart.unique {dao : ConfigDAO} (apart : Apart collation dao) : UniqueRows dao := by
  refine apart.imp fun {r s} differ same => ?_
  rw [ConfigRow.isOf, ← same.1, ← same.2] at differ
  simp [collation.refl] at differ

namespace ConfigRow

variable {r s : ConfigRow} {ip : String} {port : Int32}

theorem isOf_iff : r.isOf collation ip port ↔ collation.same r.service_ip ip ∧ r.service_port = port := by
  simp [isOf]

theorem isOf_ofConfig_iff {conf : CConfig} (plain : Plain conf.serviceIp) :
    r.isOf collation (ofConfig conf).service_ip (ofConfig conf).service_port ↔
      r.isOf collation conf.serviceIp conf.servicePort := by
  rw [ofConfig, cstr_eq_self plain.1]

theorem ofConfig_isOf {conf : CConfig} (plain : Plain conf.serviceIp)
    (new : (ofConfig conf).isOf collation s.service_ip s.service_port) :
    s.isOf collation conf.serviceIp conf.servicePort := by
  rw [isOf_iff, ofConfig, cstr_eq_self plain.1] at new
  exact isOf_iff.mpr ⟨collation.symm new.1, new.2.symm⟩

/-- Two rows of one service are rows of each other's. -/
theorem isOf_common (first : r.isOf collation ip port) (second : s.isOf collation ip port) :
    r.isOf collation s.service_ip s.service_port := by
  rw [isOf_iff] at first second ⊢
  exact ⟨collation.trans first.1 (collation.symm second.1), first.2.trans second.2.symm⟩

end ConfigRow

namespace Apart

variable {dao : ConfigDAO} {conf : CConfig}

theorem filter (apart : Apart collation dao) (p : ConfigRow → Bool) :
    Apart collation { dao with rows := dao.rows.filter p } := List.Pairwise.filter p apart

/-- A row of a service that has none comes after the others. -/
theorem insert (apart : Apart collation dao) (plain : Plain conf.serviceIp)
    (absent : ∀ row ∈ dao.rows, row.isOf collation conf.serviceIp conf.servicePort = false) :
    Apart collation { dao with rows := dao.rows ++ [.ofConfig conf] } := by
  refine List.pairwise_append.mpr ⟨apart, List.pairwise_singleton _ _, fun r mem s new => ?_⟩
  obtain rfl := List.mem_singleton.mp new
  rw [Bool.eq_false_iff, Ne, ConfigRow.isOf_ofConfig_iff plain]
  simp [absent r mem]

/-- The rows of a service, of which there is at most one, are replaced. -/
theorem update (apart : Apart collation dao) (plain : Plain conf.serviceIp) :
    Apart collation { dao with
      rows := dao.rows.map fun r =>
        if r.isOf collation conf.serviceIp conf.servicePort then .ofConfig conf else r } := by
  refine List.pairwise_map.mpr (apart.imp fun {r s} differ => ?_)
  rw [Bool.eq_false_iff] at differ ⊢
  intro same
  by_cases first : r.isOf collation conf.serviceIp conf.servicePort
  · by_cases second : s.isOf collation conf.serviceIp conf.servicePort
    · exact differ (ConfigRow.isOf_common first second)
    · rw [if_pos first, if_neg second] at same
      exact second (ConfigRow.ofConfig_isOf plain same)
  · by_cases second : s.isOf collation conf.serviceIp conf.servicePort
    · rw [if_neg first, if_pos second, ConfigRow.isOf_ofConfig_iff plain] at same
      exact first same
    · rw [if_neg first, if_neg second] at same
      exact differ same

theorem uploadConfig (apart : Apart collation dao) {o : Outcome}
    (safe : (Call.upload conf o).Safe collation dao) :
    Apart collation (dao.uploadConfig collation o conf).2 := by
  by_cases empty : conf.serviceIp = ""
  · simpa [ConfigDAO.uploadConfig, empty] using apart
  obtain ⟨plain, seen⟩ := safe empty
  rw [dao.uploadConfig_plain collation o plain rfl]
  split
  · exact apart
  split
  · split
    · exact apart.update plain
    · exact apart
  next missed =>
    unfold ConfigDAO.insertBin
    split
    next inserted =>
      refine apart.insert plain ?_
      rcases seen with selected | failed | absent
      · simpa [selected] using missed
      · simp [failed] at inserted
      · exact absent
    next => exact apart

theorem deleteConfig (apart : Apart collation dao) (o : Outcome) (ip : String) (port : Int32) :
    Apart collation (dao.deleteConfig collation o ip port).2 := by
  unfold ConfigDAO.deleteConfig
  dsimp only
  repeat' split
  · exact apart
  · exact apart
  · exact apart.filter _
  · exact apart

end Apart

/-! ## Every run -/

theorem apart_preserves :
    (calls collation).Preserves (fun dao call => call.Safe collation dao) (Apart collation) := by
  intro dao call dao' apart safe step
  obtain rfl := Option.some.inj step
  cases call with
  | upload conf o => exact apart.uploadConfig safe
  | delete ip port o => exact apart.deleteConfig o ip port

section

/-- The configuration of a service on port 80 of 10.0.0.1. -/
def serviceConfig : CConfig := { serviceIp := "10.0.0.1", servicePort := 80 }

end

end MicroserviceFramework.Config
