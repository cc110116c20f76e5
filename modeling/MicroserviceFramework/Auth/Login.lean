import MicroserviceFramework.Platform.CMsgHead
import Mathlib.Data.List.TakeWhile
import Mathlib.Tactic.Common

/-!
# Logging in

`CAuthDAO::login` as its five database steps. One connection serves all threads, and what they
share of it is in `AuthDb`: the two tables and the id of the last row inserted. The environment
answers each step with an `Outcome`: whether the statement succeeds, and what MySQL makes up or
looks up in it. How the text of the first statement is read, and so which rows it selects, is not
decided here: any rows can come back.

Columns hold the data that `CMysql::insert` is given.
-/

namespace MicroserviceFramework.Auth

open Library.Wire Platform

structure CLoginReq where
  username : String := ""
  password : String := ""
  deriving DecidableEq, Repr

instance : Message CLoginReq where
  layout := (Layout.values [.string, .string]).iso
    (fun (username, password, ()) => ⟨username, password⟩)
    (fun r => (r.username, r.password, ())) (fun _ => rfl) fun _ => rfl
  few := by decide

inductive CLoginResType where
  | OK | ERROR | NOUSER
  deriving DecidableEq, Repr

/-- Default values are those of proto3, and the default of `res` is `OK`. -/
structure CLoginRes where
  res : CLoginResType := .OK
  token : String := ""
  expired_time : Int32 := 0
  rolename : String := ""
  username : String := ""
  deriving DecidableEq, Repr

/-! ## The database -/

structure AuthRow where
  username : String
  password : String
  rolename : Option String
  deriving DecidableEq, Repr

structure TokenRow where
  id : Nat
  username : String
  rolename : String
  token : String
  expired_time : Int32
  deriving DecidableEq, Repr

/-- `cms_token`; its ids are handed out in order. -/
structure TokenTable where
  rows : List TokenRow := []
  nextId : Nat := 1
  below : ∀ row ∈ rows, row.id < nextId := by intro row mem; cases mem

namespace TokenTable

def insert (t : TokenTable) (username rolename token : String) (expired_time : Int32) :
    TokenRow × TokenTable :=
  let row := ⟨t.nextId, username, rolename, token, expired_time⟩
  (row, {
    rows := t.rows ++ [row]
    nextId := t.nextId + 1
    below := by
      intro r mem
      rcases List.mem_append.mp mem with old | new
      · exact Nat.lt_succ_of_lt (t.below r old)
      · simp [List.mem_singleton.mp new, row] })

/-- `delete from cms_token where expired_time<now`. -/
def deleteExpired (t : TokenTable) (now : Int32) : TokenTable where
  rows := t.rows.filter fun row => ¬row.expired_time < now
  nextId := t.nextId
  below row mem := t.below row (List.mem_filter.mp mem).1

/-- `select token from cms_token where id=..`. -/
def select (t : TokenTable) (id : Nat) : Option TokenRow := t.rows.find? (·.id = id)

end TokenTable

structure AuthDb where
  users : List AuthRow := []
  nextUserId : Nat := 1
  tokens : TokenTable := {}
  /-- `mysql_insert_id`: the id of the last row inserted on the connection, in either table. -/
  lastInsertId : Nat := 0

/-- What MySQL answers in one step. -/
structure Outcome where
  ok : Bool := true
  /-- The rows of the credential select, as its two columns. -/
  rows : List (Option String × Option String) := []
  uuid : String := ""
  /-- `time(0)` as an `int`. -/
  now : Int32 := 0

/-- `c_str()`: a C string ends at the first NUL. -/
def cstr (s : String) : String := String.ofList (s.toList.takeWhile (· ≠ Char.ofNat 0))

theorem cstr_eq_self {s : String} (free : Char.ofNat 0 ∉ s.toList) : cstr s = s := by
  have all : ∀ c ∈ s.toList, decide (c ≠ Char.ofNat 0) := by
    intro c mem
    rw [decide_eq_true_iff]
    rintro rfl
    exact free mem
  rw [cstr, List.takeWhile_eq_self_iff.mpr all, String.ofList_toList]

/-! ## The steps of a login -/

/-- The characters that `login` refuses in a username: a semicolon and a single quote. -/
def filtered (username : String) : Bool :=
  Char.ofNat 59 ∈ username.toList ∨ Char.ofNat 39 ∈ username.toList

/-- Where a login is, between two calls of the connection. -/
inductive LoginState where
  /-- Before the credential select. -/
  | start (req : CLoginReq) (res : CLoginRes)
  /-- Before the token insert. -/
  | insert (res : CLoginRes)
  /-- Before `getInsertId`; `row` is the row it inserted. -/
  | insertId (res : CLoginRes) (now expiredTime : Int32) (row : TokenRow)
  /-- Before the token select. -/
  | select (res : CLoginRes) (now expiredTime : Int32) (row : TokenRow) (id : Nat)
  /-- Before the expired rows are deleted. -/
  | delete (res : CLoginRes) (now : Int32) (row : TokenRow)
  /-- Returned, after inserting `row` if it came so far. -/
  | done (ret : Bool) (res : CLoginRes) (row : Option TokenRow)
  deriving DecidableEq, Repr

/-- One step of `login`. A select that fails has no rows. -/
def LoginState.step (timeoutSec : Int32) (o : Outcome) (db : AuthDb) :
    LoginState → AuthDb × LoginState
  | start req res =>
    if filtered req.username then (db, done false res none)
    else
      match if o.ok then o.rows else [] with
      | [] =>
        (db, done false { res with res := .ERROR, token := "username or password error!" } none)
      | (_, rolename) :: _ =>
        (db, insert
          { res with username := req.username, rolename := (rolename.map cstr).getD "" })
  | insert res =>
    let expiredTime := o.now + timeoutSec
    if o.ok then
      let (row, tokens) :=
        db.tokens.insert (cstr res.username) (cstr res.rolename) o.uuid expiredTime
      ({ db with tokens := tokens, lastInsertId := row.id }, insertId res o.now expiredTime row)
    else (db, done false { res with res := .ERROR, token := "1 make token error!" } none)
  | insertId res now expiredTime row => (db, select res now expiredTime row db.lastInsertId)
  | select res now expiredTime row id =>
    match if o.ok then db.tokens.select id else none with
    | none => (db, done false { res with res := .ERROR, token := "2 make token error!" } row)
    | some found =>
      (db, delete { res with res := .OK, token := found.token, expired_time := expiredTime }
        now row)
  | delete res now row =>
    (if o.ok then { db with tokens := db.tokens.deleteExpired now } else db, done true res row)
  | done ret res row => (db, done ret res row)

/-! ## A login without others in between -/

/-- What MySQL answers to the five steps. -/
structure Outcomes where
  select : Outcome := {}
  insert : Outcome := {}
  insertId : Outcome := {}
  selectToken : Outcome := {}
  delete : Outcome := {}

def Outcomes.list (o : Outcomes) : List Outcome :=
  [o.select, o.insert, o.insertId, o.selectToken, o.delete]

/-- Steps one after the other. -/
def LoginState.run (timeoutSec : Int32) : List Outcome → AuthDb → LoginState → AuthDb × LoginState
  | [], db, s => (db, s)
  | o :: os, db, s => run timeoutSec os (s.step timeoutSec o db).1 (s.step timeoutSec o db).2

/-- `CAuthDAO::login`. Five steps are enough for it to return (`login_cases`). -/
def login (timeoutSec : Int32) (o : Outcomes) (db : AuthDb) (req : CLoginReq) (res : CLoginRes) :
    AuthDb × LoginState :=
  LoginState.run timeoutSec o.list db (.start req res)

/-! ## How a login ends -/

/-- The row just inserted is the one its id selects. -/
theorem TokenTable.select_insert {t t' : TokenTable} {row : TokenRow}
    {username rolename token : String} {expired_time : Int32}
    (created : t.insert username rolename token expired_time = (row, t')) :
    t'.select row.id = some row := by
  obtain ⟨rfl, rfl⟩ := Prod.mk.inj created
  have older : t.rows.find? (·.id = t.nextId) = none := by
    rw [List.find?_eq_none]
    intro row mem
    have less := t.below row mem
    simp; omega
  simp [select, older]

theorem TokenTable.mem_deleteExpired {t : TokenTable} {row : TokenRow} {now : Int32} :
    row ∈ (t.deleteExpired now).rows ↔ row ∈ t.rows ∧ ¬row.expired_time < now := by
  simp [deleteExpired]

/-- The three ways a login ends: refused by the filter with nothing set in the response, failed
with an error, or after all its steps. -/
theorem login_cases (timeoutSec : Int32) (o : Outcomes) (db : AuthDb) (req : CLoginReq)
    (res : CLoginRes) :
    (filtered req.username = true ∧ login timeoutSec o db req res = (db, .done false res none)) ∨
    (filtered req.username = false ∧ ∃ db' res' row,
      login timeoutSec o db req res = (db', .done false res' row) ∧ res'.res = .ERROR) ∨
    (filtered req.username = false ∧ ∃ answer ∈ o.select.rows, ∃ db' res' row,
      (LoginState.run timeoutSec [o.select, o.insert, o.insertId] db (.start req res)).1 = db' ∧
      login timeoutSec o db req res =
        (if o.delete.ok then { db' with tokens := db'.tokens.deleteExpired o.insert.now } else db',
          .done true res' (some row)) ∧
      res'.res = .OK ∧ res'.username = req.username ∧
      res'.rolename = (answer.2.map cstr).getD "" ∧ res'.token = row.token ∧
      row ∈ db'.tokens.rows) := by
  by_cases refused : filtered req.username
  · exact .inl ⟨refused, by simp [login, Outcomes.list, LoginState.run, LoginState.step, refused]⟩
  replace refused := Bool.eq_false_iff.mpr refused
  cases answers : if o.select.ok then o.select.rows else [] with
  | nil =>
    exact .inr <| .inl ⟨refused, db,
      { res with res := .ERROR, token := "username or password error!" }, none,
      by simp [login, Outcomes.list, LoginState.run, LoginState.step, refused, answers], rfl⟩
  | cons answer rest =>
    have found : answer ∈ o.select.rows := by
      have mem : answer ∈ (if o.select.ok then o.select.rows else []) := by simp [answers]
      split at mem
      · exact mem
      · simp at mem
    let res₁ : CLoginRes :=
      { res with username := req.username, rolename := (answer.2.map cstr).getD "" }
    by_cases inserted : o.insert.ok
    · cases created : db.tokens.insert (cstr res₁.username) (cstr res₁.rolename) o.insert.uuid
          (o.insert.now + timeoutSec) with
      | mk row tokens =>
        have own : tokens.select row.id = some row := TokenTable.select_insert created
        let db₁ : AuthDb := { db with tokens := tokens, lastInsertId := row.id }
        by_cases selected : o.selectToken.ok
        · refine .inr <| .inr ⟨refused, answer, found, db₁,
            { res₁ with
              res := .OK, token := row.token, expired_time := o.insert.now + timeoutSec }, row,
            ?_, ?_, rfl, rfl, rfl, rfl, List.mem_of_find?_eq_some own⟩
          · simp [LoginState.run, LoginState.step, refused, answers, inserted, res₁, created, db₁]
          · simp [login, Outcomes.list, LoginState.run, LoginState.step, refused, answers, inserted,
              selected, res₁, created, own, db₁]
        · exact .inr <| .inl ⟨refused, db₁,
            { res₁ with res := .ERROR, token := "2 make token error!" }, some row,
            by simp [login, Outcomes.list, LoginState.run, LoginState.step, refused, answers,
              inserted, selected, res₁, created, db₁], rfl⟩
    · exact .inr <| .inl ⟨refused, db,
        { res₁ with res := .ERROR, token := "1 make token error!" }, none,
        by simp [login, Outcomes.list, LoginState.run, LoginState.step, refused, answers, inserted,
          res₁], rfl⟩

end MicroserviceFramework.Auth
