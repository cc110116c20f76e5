import MicroserviceFramework.Config.ConfigDAO
import MicroserviceFramework.Mysql.Dao

/-!
# The DAO functions on the threads of a service

`CAuthDAO::login` calls its connection without the mutex that `CAuthDAO::addUser` takes, so the
rows that it reads can have been freed by another login. All functions of `ConfigDAO` take the
mutex first and hold it until they return. A call of a `CMysql` method is one step here, so two of
them never overlap.

What the functions return is not needed here.
-/

namespace MicroserviceFramework.Services

open Library Library.Wire Platform
open Auth (CAddUserReq CLoginReq cstr credentialSql filtered)
open Config (ConfigDAO Statement whereSql)
open Config.ConfigDAO (InRange)
open Mysql

/-! ## Users and logins -/

/-- `data` of `CAuthDAO::login`. -/
def loginData (username rolename : String) (expiredTime : Int32) : MData String :=
  let data : MData String := .empty
  let data := data.set "@token" (.ofCString "UUID()")
  let data := data.set "cms_username" (.ofCString username)
  let data := data.set "cms_rolename" (.ofCString rolename)
  data.set "expired_time" (.ofCString expiredTime.toInt.repr)

def tokenSql (id : Int32) : String := "select token from cms_token where id=" ++ id.toInt.repr

def expiredSql (now : Int32) : String :=
  "delete from cms_token where expired_time<" ++ now.toInt.repr

inductive AuthRequest where
  | addUser (user : CAddUserReq)
  /-- `now` is `time(0)` when the token is made. -/
  | login (req : CLoginReq) (timeoutSec now : Int32)

/-- The second half of a login: the token is made, read back, and old ones are deleted. -/
def makeToken (username rolename : String) (timeoutSec now : Int32) : Dao :=
  .insert (loginData username rolename (now + timeoutSec)) "cms_token" fun inserted =>
    if !inserted then .done
    else
      .getInsertId fun id => .getResult (tokenSql id) fun rows =>
        if rows.isEmpty then .done
        else .read (.query (expiredSql now) fun _ => .done)

/-- `text` is how the connection encodes characters. -/
def AuthRequest.dao (text : List UInt8 → String) : AuthRequest → Dao
  | addUser user => .lock (.insert (addUserData user) "cms_auth" fun _ => .unlock .done)
  | login req timeoutSec now =>
    if filtered req.username then .done
    else
      .getResult (credentialSql req) fun
        | [] => .done
        | row :: _ =>
          match row[1]?.bind (·.data.bytes) with
          | none => makeToken req.username "" timeoutSec now
          | some bytes =>
            .read (makeToken req.username (text (bytes.takeWhile (· ≠ 0))) timeoutSec now)

/-! ## Configurations -/

def configTable : String := "cms_service_config"

/-- `data` of `ConfigDAO::uploadConfig`. -/
def uploadData (conf : CConfig) : MData Datum :=
  let data : MData Datum := .empty
  let data := data.set "service_name" (.ofText conf.serviceName)
  let data := data.set "service_port" (.ofInt conf.servicePort)
  let data := data.set "service_ip" (.ofText conf.serviceIp)
  let data := data.set "private_pb" (.ofBytes (Message.serialize conf))
  data.set "proto" (.ofBytes conf.proto)

def pageSql (page pageCount : Int32) : String :=
  "select `service_name`,`service_ip`,`service_port` from " ++ configTable ++ " order by id desc" ++
    " limit " ++ ((page - 1) * pageCount).toInt.repr ++ "," ++ pageCount.toInt.repr

inductive ConfigRequest where
  | upload (conf : CConfig)
  | download (ip : String) (port : Int32)
  | downloadAll (page pageCount : Int32)
  | delete (ip : String) (port : Int32)

/-- What is done under the mutex. `mysql` says whether `mysql_` is set. -/
def ConfigRequest.body (mysql : Bool) : ConfigRequest → Dao
  | upload conf =>
    if !mysql ∨ conf.serviceIp = "" then .unlock .done
    else
      let condition := whereSql conf.serviceIp conf.servicePort
      .getResult (Statement.selectId.text ++ condition) fun rows =>
        if 0 < rows.length then
          .updateBin (uploadData conf) configTable condition fun _ => .unlock .done
        else .insertBin (uploadData conf) configTable fun _ => .unlock .done
  | download ip port =>
    if !mysql ∨ ¬InRange ip port then .unlock .done
    else
      .getResult (Statement.selectPrivatePb.text ++ whereSql ip port) fun rows =>
        if rows.isEmpty then .unlock .done else .read (.unlock .done)
  | downloadAll page pageCount =>
    if !mysql ∨ page ≤ 0 ∨ pageCount ≤ 0 then .unlock .done
    else
      .getResult (pageSql page pageCount) fun rows =>
        rows.foldr (fun _ next => .read next) (.unlock .done)
  | delete ip port =>
    if !mysql ∨ ¬InRange ip port then .unlock .done
    else .query (Statement.delete.text ++ whereSql ip port) fun _ => .unlock .done

def ConfigRequest.dao (mysql : Bool) (request : ConfigRequest) : Dao :=
  .lock (request.body mysql)

/-! ## Threads that serve requests -/

section

variable {θ : Type*} [DecidableEq θ] (answers : Nat → Answer) {db : CMysql} {ts : List θ}
  {s : Shared θ}

/-- Every thread calls its functions one after the other. -/
def serve (db : CMysql) (functions : θ → List Dao) : Shared θ where
  db := db
  todo t := Dao.all (functions t)

omit [DecidableEq θ] in
theorem sound_serve (owns : db.Owns) (functions : θ → List Dao) : (serve db functions).Sound :=
  ⟨owns, by simp [serve]⟩

/-- Where calls of the connection do not overlap, no login reads a row that has been freed exactly
if each time a login reads rows, its thread was the last to select any. -/
theorem stale_iff_serve_auth (text : List UInt8 → String) (owns : db.Owns)
    (requests : θ → List AuthRequest)
    (run : (Shared.machine answers).run
      (serve db fun t => (requests t).map (·.dao text)) ts = some s) :
    s.stale = false ↔ (Shared.machine answers).Along Shared.OwnRows
      (serve db fun t => (requests t).map (·.dao text)) ts :=
  (sound_serve owns _).stale_iff rfl run

/-- Every statement succeeds, and a result has one row of two columns. -/
def twoColumns (_ : Nat) : Answer where
  rows := [[(some [0x61], .CMYSQL_TYPE_STRING), (some [0x62], .CMYSQL_TYPE_STRING)]]
  number := 1

/-- Two threads with a login each. -/
def twoLogins (_ : Bool) : List AuthRequest := [.login { username := "a" } 1800 0]

/-- The second login selects its user before the first has read its role. -/
theorem stale_twoLogins : ∃ s, (Shared.machine twoColumns).run
      (serve (CMysql.init twoColumns {}).2 fun t => (twoLogins t).map (·.dao fun _ => ""))
      [false, true, false] = some s ∧ s.stale = true ∧
    ¬(Shared.machine twoColumns).Along Shared.OwnRows
      (serve (CMysql.init twoColumns {}).2 fun t => (twoLogins t).map (·.dao fun _ => ""))
      [false, true, false] := by
  obtain ⟨s, run⟩ : ∃ s, (Shared.machine twoColumns).run
      (serve (CMysql.init twoColumns {}).2 fun t => (twoLogins t).map (·.dao fun _ => ""))
      [false, true, false] = some s := ⟨_, rfl⟩
  have owns : (CMysql.init twoColumns {}).2.Owns := (CMysql.Owns.start.init twoColumns).owns
  have iff := stale_iff_serve_auth twoColumns (fun _ => "") owns twoLogins run
  have stale : s.stale = true := by
    cases run
    rfl
  refine ⟨s, run, stale, fun along => ?_⟩
  rw [iff.mpr along] at stale
  cases stale

theorem length_set_le (kv : MData Datum) (key : String) (d : CData Datum) :
    (kv.set key d).entries.length ≤ kv.entries.length + 1 := by
  unfold MData.set
  dsimp only
  fun_induction MData.put key d kv.entries <;> grind

theorem length_uploadData (conf : CConfig) : (uploadData conf).entries.length ≤ 256 := by
  unfold uploadData
  grind [length_set_le, MData.entries_empty]

theorem ConfigRequest.guarded_body (mysql : Bool) (request : ConfigRequest) :
    (request.body mysql).Guarded .locked := by
  cases request with
  | upload conf =>
    dsimp only [body]
    split
    · simp [Dao.Guarded]
    · refine ⟨by simp, fun rows => ?_⟩
      dsimp only
      split <;> simp [Dao.Guarded, length_uploadData]
  | download ip port =>
    dsimp only [body]
    split
    · simp [Dao.Guarded]
    · refine ⟨by simp, fun rows => ?_⟩
      dsimp only
      split <;> simp [Dao.Guarded]
  | downloadAll page pageCount =>
    dsimp only [body]
    split
    · simp [Dao.Guarded]
    · refine ⟨by simp, fun rows => ?_⟩
      induction rows with
      | nil => simp [Dao.Guarded]
      | cons row rows ih => exact ⟨rfl, ih⟩
  | delete ip port =>
    dsimp only [body]
    split <;> simp [Dao.Guarded]

omit [DecidableEq θ] in
theorem ready_serve (mysql : Bool) (db : CMysql) (requests : θ → List ConfigRequest) :
    (serve db fun t => (requests t).map (·.dao mysql)).Ready := by
  refine ⟨rfl, fun t => Dao.Guarded.all fun d mem => ?_⟩
  obtain ⟨request, -, rfl⟩ := List.mem_map.mp mem
  exact ⟨rfl, request.guarded_body mysql⟩

/-- However the threads of the config service interleave, no freed row is read, a thread that has
the mutex is not disturbed until it gives it back, and when no thread can go on all have finished. -/
theorem config_serve (mysql : Bool) (owns : db.Owns) (requests : θ → List ConfigRequest)
    (run : (Shared.machine answers).run
      (serve db fun t => (requests t).map (·.dao mysql)) ts = some s) :
    s.stale = false ∧
    (∀ t u, s.holder = some t → u ≠ t → s.step answers u = none) ∧
    ((∀ t, s.step answers t = none) → s.holder = none ∧ ∀ t, s.todo t = .done) := by
  have ready := ready_serve mysql db requests
  obtain ⟨phase, excluded⟩ := ready.excluded_run run
  refine ⟨ready.stale_eq (sound_serve owns _) rfl run, fun t u holder other => ?_, fun stuck => ?_⟩
  · exact excluded.waits holder other
  · have finished (t : θ) : s.todo t = .done := by
      by_contra unfinished
      obtain ⟨u, s', step⟩ : ∃ u s', s.step answers u = some s' := excluded.progress unfinished
      rw [stuck u] at step
      cases step
    refine ⟨?_, finished⟩
    rw [Option.eq_none_iff_forall_ne_some]
    intro t holder
    have guarded := excluded.guarded t
    rw [finished t] at guarded
    exact (excluded.holder t).mp holder guarded

end

/-- One thread downloads while the other waits to delete. -/
def twoRequests (t : Bool) : List ConfigRequest :=
  if t then [.delete "a" 1] else [.download "a" 1]

theorem config_serve_twoRequests : ∃ s, (Shared.machine twoColumns).run
      (serve (CMysql.init twoColumns {}).2 fun t => (twoRequests t).map (·.dao true))
      [false, false] = some s ∧ s.holder = some false ∧ s.stale = false ∧
    s.step twoColumns true = none := by
  obtain ⟨s, run⟩ : ∃ s, (Shared.machine twoColumns).run
      (serve (CMysql.init twoColumns {}).2 fun t => (twoRequests t).map (·.dao true))
      [false, false] = some s := ⟨_, rfl⟩
  have owns : (CMysql.init twoColumns {}).2.Owns := (CMysql.Owns.start.init twoColumns).owns
  obtain ⟨fresh, waits, -⟩ := config_serve twoColumns true owns twoRequests run
  have holder : s.holder = some false := by
    cases run
    rfl
  exact ⟨s, run, holder, fresh, waits false true holder (by decide)⟩

end MicroserviceFramework.Services
