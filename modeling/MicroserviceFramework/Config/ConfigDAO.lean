import MicroserviceFramework.Config.ConfigSql
import MicroserviceFramework.Platform.CMsgCom

/-!
# The table of configurations

`ConfigDAO` keeps one row of `cms_service_config` for each service, in the order of the rows' ids.
A statement can fail; then it changes nothing. What a text selects that does not read as a
condition on the address and the port is up to the environment.

An inserted or updated row takes its values from bound parameters, with strings cut at the first
NUL, except for the serialised configuration.
-/

namespace MicroserviceFramework.Config

open Library.Wire Platform
open Auth (cstr Plain)

structure ConfigRow where
  service_name : String
  service_port : Int32
  service_ip : String
  private_pb : List UInt8
  proto : List UInt8
  deriving DecidableEq, Repr

/-- The bound values; the whole configuration is serialised into `private_pb`. -/
def ConfigRow.ofConfig (conf : CConfig) : ConfigRow where
  service_name := cstr conf.serviceName
  service_port := conf.servicePort
  service_ip := cstr conf.serviceIp
  private_pb := Message.serialize conf
  proto := conf.proto

/-- The collation of the table: which strings are equal. -/
structure Collation where
  same : String → String → Bool
  refl : ∀ s, same s s
  symm : ∀ {s t}, same s t → same t s
  trans : ∀ {s t u}, same s t → same t u → same s u

/-- Strings are equal to themselves only. -/
def Collation.exact : Collation where
  same s t := s = t
  refl s := by simp
  symm same := by simpa [eq_comm] using same
  trans first second := by simp_all

/-- The row is one of that address and port. -/
def ConfigRow.isOf (collation : Collation) (ip : String) (port : Int32) (row : ConfigRow) : Bool :=
  collation.same row.service_ip ip ∧ row.service_port = port

def Condition.holds (collation : Collation) (condition : Condition) (row : ConfigRow) : Bool :=
  collation.same row.service_ip (String.ofList condition.ip) ∧
    row.service_port.toInt = condition.port

/-! ## The operations -/

/-- How the statements of one call come out. -/
structure Outcome where
  select : Bool := true
  update : Bool := true
  insert : Bool := true
  delete : Bool := true
  /-- What a text selects that does not read as a condition on the two columns. -/
  other : ConfigRow → Bool := fun _ => false

/-- The rows that a statement is about. -/
def Outcome.selects (o : Outcome) (collation : Collation) (s : Statement) (sql : String) :
    ConfigRow → Bool :=
  match s.read sql with
  | some condition => condition.holds collation
  | none => o.other

structure ConfigDAO where
  /-- Whether `mysql_` is set. -/
  mysql : Bool := true
  rows : List ConfigRow := []
  deriving DecidableEq, Repr

namespace ConfigDAO

variable (collation : Collation)

/-- `CMysql::getResult`: a query that fails has no rows. -/
def getResult (o : Outcome) (s : Statement) (sql : String) (dao : ConfigDAO) : List ConfigRow :=
  if o.select then dao.rows.filter (o.selects collation s (cstr sql)) else []

/-- `CMysql::updateBin`, for a statement that succeeds or not. The text is not a C string here. -/
def updateBin (o : Outcome) (row : ConfigRow) (sql : String) (dao : ConfigDAO) :
    Bool × ConfigDAO :=
  if o.update then
    (true, { dao with
      rows := dao.rows.map fun r => if o.selects collation .update sql r then row else r })
  else (false, dao)

/-- `CMysql::insertBin`. -/
def insertBin (o : Outcome) (row : ConfigRow) (dao : ConfigDAO) : Bool × ConfigDAO :=
  if o.insert then (true, { dao with rows := dao.rows ++ [row] }) else (false, dao)

def uploadConfig (o : Outcome) (conf : CConfig) (dao : ConfigDAO) : Bool × ConfigDAO :=
  if !dao.mysql then (false, dao)
  else if conf.serviceIp = "" then (false, dao)
  else
    let data := ConfigRow.ofConfig conf
    let condition := whereSql conf.serviceIp conf.servicePort
    let rows := dao.getResult collation o .selectId (Statement.selectId.text ++ condition)
    if 0 < rows.length then dao.updateBin collation o data (Statement.update.text ++ condition)
    else dao.insertBin o data

/-- What `downloadConfig` and `deleteConfig` ask of their arguments. -/
def InRange (ip : String) (port : Int32) : Prop := ip ≠ "" ∧ 0 < port ∧ port < 65536

instance (ip : String) (port : Int32) : Decidable (InRange ip port) :=
  inferInstanceAs (Decidable (_ ∧ _))

/-- What is left of a row that does not parse is returned too. -/
def downloadConfig [Protobuf] (o : Outcome) (ip : String) (port : Int32) (dao : ConfigDAO) :
    CConfig :=
  if !dao.mysql then {}
  else if ¬InRange ip port then {}
  else
    match dao.getResult collation o .selectPrivatePb
        (Statement.selectPrivatePb.text ++ whereSql ip port) with
    | [] => { serviceIp := ip, servicePort := port }
    | row :: _ => (Message.parse row.private_pb).2

/-- A page of the table, latest first. An offset below zero is a syntax error. -/
def downloadAllConfig (o : Outcome) (page pageCount : Int32) (dao : ConfigDAO) : CConfigList :=
  if !dao.mysql then {}
  else if page ≤ 0 ∨ pageCount ≤ 0 then {}
  else
    let offset := (page - 1) * pageCount
    if o.select ∧ 0 ≤ offset then
      { config := ((dao.rows.reverse.drop offset.toInt.toNat).take pageCount.toInt.toNat).map
          fun row =>
            { serviceName := row.service_name
              serviceIp := row.service_ip
              servicePort := row.service_port } }
    else {}

def deleteConfig (o : Outcome) (ip : String) (port : Int32) (dao : ConfigDAO) : Bool × ConfigDAO :=
  if !dao.mysql then (false, dao)
  else if ¬InRange ip port then (false, dao)
  else if o.delete then
    let sql := Statement.delete.text ++ whereSql ip port
    (true, { dao with
      rows := dao.rows.filter fun row => !o.selects collation .delete (cstr sql) row })
  else (false, dao)

end ConfigDAO

theorem ConfigDAO.uploadConfig_mysql (collation : Collation) (o : Outcome) (conf : CConfig)
    (dao : ConfigDAO) : (dao.uploadConfig collation o conf).2.mysql = dao.mysql := by
  unfold uploadConfig updateBin insertBin
  dsimp only
  repeat' split
  all_goals rfl

/-- An answer is empty, the key alone, or what is in a row that the statement selects. -/
theorem ConfigDAO.downloadConfig_cases [Protobuf] (collation : Collation) (o : Outcome)
    (ip : String) (port : Int32) (dao : ConfigDAO) :
    let sql := Statement.selectPrivatePb.text ++ whereSql ip port
    dao.downloadConfig collation o ip port = {} ∨
    dao.mysql ∧ (dao.getResult collation o .selectPrivatePb sql = [] ∨
      ∃ row ∈ dao.rows, o.selects collation .selectPrivatePb (cstr sql) row ∧
        dao.downloadConfig collation o ip port = (Message.parse row.private_pb).2) := by
  intro sql
  by_cases mysql : dao.mysql
  · cases rows : dao.getResult collation o .selectPrivatePb sql with
    | nil => exact .inr ⟨mysql, .inl rfl⟩
    | cons row rest =>
      by_cases range : InRange ip port
      · have mem : row ∈ dao.getResult collation o .selectPrivatePb sql := by simp [rows]
        unfold getResult at mem
        split at mem
        · obtain ⟨mem, selected⟩ := List.mem_filter.mp mem
          refine .inr ⟨mysql, .inr ⟨row, mem, selected, ?_⟩⟩
          simp [downloadConfig, mysql, range, sql, rows]
        · cases mem
      · exact .inl (by simp [downloadConfig, range])
  · exact .inl (by simp [downloadConfig, mysql])

/-! ## Addresses that can stand in a text -/

section

variable (collation : Collation) (o : Outcome) {ip : String} (plain : Plain ip) (port : Int32)
  (dao : ConfigDAO)

include plain

theorem Outcome.selects_plain (s : Statement) :
    o.selects collation s (s.text ++ whereSql ip port) = ConfigRow.isOf collation ip port := by
  funext row
  simp [selects, Statement.read_where s plain, Condition.holds, ConfigRow.isOf, Int32.toInt_inj]

theorem ConfigDAO.getResult_plain (s : Statement) :
    dao.getResult collation o s (s.text ++ whereSql ip port) =
      if o.select then dao.rows.filter (ConfigRow.isOf collation ip port) else [] := by
  rw [getResult, cstr_whereSql s plain, Outcome.selects_plain collation o plain]

/-- An upload updates the rows of its service when the select finds one, and else inserts one. -/
theorem ConfigDAO.uploadConfig_plain {conf : CConfig} (address : conf.serviceIp = ip) :
    dao.uploadConfig collation o conf =
      if ¬dao.mysql ∨ ip = "" then (false, dao)
      else if o.select ∧ ∃ row ∈ dao.rows, row.isOf collation ip conf.servicePort then
        if o.update then
          (true, { dao with
            rows := dao.rows.map fun r =>
              if r.isOf collation ip conf.servicePort then .ofConfig conf else r })
        else (false, dao)
      else dao.insertBin o (.ofConfig conf) := by
  subst address
  have found : 0 < (dao.getResult collation o .selectId
      (Statement.selectId.text ++ whereSql conf.serviceIp conf.servicePort)).length ↔
      o.select ∧ ∃ row ∈ dao.rows, row.isOf collation conf.serviceIp conf.servicePort := by
    rw [dao.getResult_plain collation o plain]
    split
    next ok => simp [ok, List.length_pos_iff, List.filter_eq_nil_iff]
    next failed => simp [failed]
  simp only [uploadConfig, found, updateBin, Outcome.selects_plain collation o plain]
  grind

theorem ConfigDAO.deleteConfig_plain :
    dao.deleteConfig collation o ip port =
      if dao.mysql ∧ InRange ip port ∧ o.delete then
        (true, { dao with rows := dao.rows.filter fun r => !r.isOf collation ip port })
      else (false, dao) := by
  simp only [deleteConfig, cstr_whereSql .delete plain, Outcome.selects_plain collation o plain]
  grind

end

end MicroserviceFramework.Config
