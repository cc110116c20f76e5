import MicroserviceFramework.Auth.CAuthHandle
import MicroserviceFramework.Config.ConfigDAO
import MicroserviceFramework.Mysql.GeneratedSql

/-!
# The auth service as a directory of users

What the auth service is for: a directory of accounts, in which the first to register a name keeps
it. The service itself puts the fields of a request into the texts of two statements, and answers
with what MySQL makes of them.

When names and passwords can stand in the texts, the answers are those of the directory, whatever
other statements fail. A name with a semicolon can be registered, but never logs in.
-/

namespace MicroserviceFramework.Auth

open Library Library.Wire Library.Sql Platform
open Config (Collation)
open Mysql (addUserSql addsAsGiven_iff readInsert)

structure Account where
  password : String
  rolename : String
  deriving DecidableEq, Repr

abbrev Directory := String → Option Account

/-- A request, and how its statements come out otherwise: whether the INSERT can be executed, and
the outcomes of a login, whose rows are those that its text selects. -/
inductive UserRequest where
  | addUser (msg : List UInt8) (executed : Bool)
  | login (head : CMsgHead) (msg : CMsg) (o : Outcomes)

inductive UserReply where
  | added | welcome (rolename : String) | refused
  deriving DecidableEq, Repr

variable (collation : Collation)

namespace Directory

def empty : Directory := fun _ => none

def register (dir : Directory) (user : CAddUserReq) : Directory := fun name =>
  if collation.same user.username name then some ⟨user.password, user.rolename⟩ else dir name

/-- All statements that a login needs succeed, and its name can be one. -/
def Admits (req : CLoginReq) (o : Outcomes) : Prop :=
  o.select.ok ∧ o.insert.ok ∧ o.selectToken.ok ∧ filtered req.username = false ∧ req.username ≠ ""

instance (req : CLoginReq) (o : Outcomes) : Decidable (Admits req o) :=
  inferInstanceAs (Decidable (_ ∧ _))

def login (dir : Directory) (req : CLoginReq) (o : Outcomes) : UserReply :=
  match dir req.username with
  | none => .refused
  | some account =>
    if Admits req o ∧ collation.same account.password req.password then .welcome account.rolename
    else .refused

def serve [Protobuf] (dir : Directory) : UserRequest → List UserReply × Directory
  | .addUser msg executed =>
    match Message.parse (M := CAddUserReq) msg with
    | (false, _) => ([.refused], dir)
    | (true, user) =>
      if executed ∧ dir user.username = none then ([.added], dir.register collation user)
      else ([.refused], dir)
  | .login _ msg o =>
    match Message.parse (M := CLoginReq) msg.bytes with
    | (false, _) => ([], dir)
    | (true, req) => ([dir.login collation req o], dir)

end Directory

/-! ## The service -/

/-- The row that MySQL reads in an INSERT into `cms_auth`. -/
def insertedRow (sql : String) : Option AuthRow :=
  match readInsert sql with
  | some ⟨table, columns, [[.str password], [.str rolename], [.str username]]⟩ =>
    if table = "cms_auth".toList ∧
        columns = ["cms_password", "cms_rolename", "cms_username"].map String.toList then
      some ⟨.ofList username, .ofList password, some (.ofList rolename)⟩
    else none
  | _ => none

namespace AuthDb

/-- `cms_username_UNIQUE` has no row of that name yet. -/
def accepts (db : AuthDb) (sql : String) : Bool :=
  match insertedRow sql with
  | none => false
  | some row => !db.users.any fun user => collation.same user.username row.username

/-- What the credential select of a login finds. -/
def finds (db : AuthDb) (req : CLoginReq) (o : Outcomes) : Outcomes :=
  match readSql (credentialSql req) with
  | none => o
  | some q => { o with select := { o.select with rows := q.rows collation.same db.users } }

/-- What a client makes of the answer to a request: one for a login without a name is ignored. -/
def addUserReply (reply : Option (CMsgHead × CMessageRes)) : List UserReply :=
  reply.toList.map fun (_, res) => if res.return_ = .OK then .added else .refused

def loginReply (reply : Option (CMsgHead × CLoginRes)) : List UserReply :=
  reply.toList.map fun (_, res) =>
    if res.res = .OK ∧ res.username ≠ "" then .welcome res.rolename else .refused

def serve [Protobuf] (db : AuthDb) : UserRequest → List UserReply × AuthDb
  | .addUser msg executed =>
    let sql := addUserSql (Message.parse (M := CAddUserReq) msg).2
    let (db, reply) := addUserReq { ok := executed && db.accepts collation sql } db msg
    (addUserReply reply, db)
  | .login head msg o =>
    let o := db.finds collation (Message.parse (M := CLoginReq) msg.bytes).2 o
    let (db, reply) := loginReq o db head msg
    (loginReply reply, db)

end AuthDb

/-- The fields of a request can stand in the texts of its statements. -/
def UserRequest.Plain [Protobuf] : UserRequest → Prop
  | addUser msg _ =>
    let user := (Message.parse (M := CAddUserReq) msg).2
    Auth.Plain user.username ∧ Auth.Plain user.password ∧ Auth.Plain user.rolename
  | login _ msg _ =>
    let req := (Message.parse (M := CLoginReq) msg.bytes).2
    Auth.Plain req.username ∧ Auth.Plain req.password

instance [Protobuf] : ∀ r : UserRequest, Decidable r.Plain
  | .addUser .. => inferInstanceAs (Decidable (_ ∧ _))
  | .login .. => inferInstanceAs (Decidable (_ ∧ _))

/-! ## A login and what it finds -/

/-- The answer to a login whose name passes the filter. -/
structure Answers (o : Outcomes) (db : AuthDb) (req : CLoginReq) (ended : AuthDb × LoginState)
    (ret : Bool) (res : CLoginRes) (row : Option TokenRow) : Prop where
  done : ended.2 = .done ret res row
  users : ended.1.users = db.users
  ok : res.res = .OK ↔ (o.select.ok ∧ o.insert.ok ∧ o.selectToken.ok) ∧ o.select.rows ≠ []
  name : res.res = .OK → res.username = req.username
  role : res.res = .OK → ∀ answer rest, o.select.rows = answer :: rest →
    res.rolename = (answer.2.map cstr).getD ""

theorem login_answers (timeoutSec : Int32) (o : Outcomes) (db : AuthDb) {req : CLoginReq}
    (passed : filtered req.username = false) (res : CLoginRes) :
    ∃ ret res' row, Answers o db req (login timeoutSec o db req res) ret res' row := by
  cases answers : if o.select.ok then o.select.rows else [] with
  | nil =>
    refine ⟨false, { res with res := .ERROR, token := "username or password error!" }, none,
      ?_, ?_, ?_, by simp, by simp⟩
    · simp [login, Outcomes.list, LoginState.run, LoginState.step, passed, answers]
    · simp [login, Outcomes.list, LoginState.run, LoginState.step, passed, answers]
    · grind
  | cons answer rest =>
    have selected : o.select.ok = true ∧ o.select.rows = answer :: rest := by grind
    let res₁ : CLoginRes :=
      { res with username := req.username, rolename := (answer.2.map cstr).getD "" }
    by_cases inserted : o.insert.ok
    · cases created : db.tokens.insert (cstr res₁.username) (cstr res₁.rolename) o.insert.uuid
          (o.insert.now + timeoutSec) with
      | mk row tokens =>
        have own : tokens.select row.id = some row := TokenTable.select_insert created
        by_cases read : o.selectToken.ok
        · refine ⟨true, { res₁ with
            res := .OK, token := row.token, expired_time := o.insert.now + timeoutSec }, some row,
            ?_, ?_, by simp [selected, inserted, read], fun _ => rfl, ?_⟩
          · simp [login, Outcomes.list, LoginState.run, LoginState.step, passed, answers, inserted,
              res₁, created, own, read]
          · simp [login, Outcomes.list, LoginState.run, LoginState.step, passed, answers, inserted,
              res₁, created, own, read]
            split <;> rfl
          · intro _ answer' rest' rows
            obtain rfl := (List.cons.inj (selected.2.symm.trans rows)).1
            rfl
        · refine ⟨false, { res₁ with res := .ERROR, token := "2 make token error!" }, some row,
            ?_, ?_, by simp [read], by simp, by simp⟩
          · simp [login, Outcomes.list, LoginState.run, LoginState.step, passed, answers, inserted,
              res₁, created, read]
          · simp [login, Outcomes.list, LoginState.run, LoginState.step, passed, answers, inserted,
              res₁, created, read]
    · refine ⟨false, { res₁ with res := .ERROR, token := "1 make token error!" }, none,
        ?_, ?_, by simp [inserted], by simp, by simp⟩
      · simp [login, Outcomes.list, LoginState.run, LoginState.step, passed, answers, inserted, res₁]
      · simp [login, Outcomes.list, LoginState.run, LoginState.step, passed, answers, inserted]

/-! ## The texts of the requests -/

theorem insertedRow_addUserSql {user : CAddUserReq} (username : Plain user.username)
    (password : Plain user.password) (rolename : Plain user.rolename) :
    insertedRow (addUserSql user) =
      some ⟨user.username, user.password, some user.rolename⟩ := by
  have read := (addsAsGiven_iff user).mpr ⟨username, password, rolename⟩
  rw [Mysql.AddsAsGiven] at read
  rw [insertedRow, read]
  dsimp only
  rw [if_pos ⟨rfl, rfl⟩, String.ofList_toList, String.ofList_toList, String.ofList_toList]

theorem rows_credentialSelect (same : String → String → Bool) (users : List AuthRow)
    (req : CLoginReq) : (credentialSelect req).rows same users =
      (users.filter fun user => same user.username req.username && same user.password req.password).map
        fun user => (some user.username, user.rolename) := by
  simp [Select.rows, credentialSelect, Condition.holds, Comparison.holds, Operand.value,
    AuthRow.column]

theorem finds_plain (db : AuthDb) {req : CLoginReq} (username : Plain req.username)
    (password : Plain req.password) (o : Outcomes) :
    db.finds collation req o = { o with
      select := { o.select with
        rows := (credentialSelect req).rows collation.same db.users } } := by
  have read := readSql_of_plain username password
  unfold AuthDb.finds
  simp only [read]

/-! ## The service is the directory -/

/-- The table has each name once, and the account of a name is in its row. -/
structure Refines (db : AuthDb) (dir : Directory) : Prop where
  distinct : db.users.Pairwise fun u v => collation.same u.username v.username = false
  rolename : ∀ u ∈ db.users, ∃ rolename, u.rolename = some rolename ∧ cstr rolename = rolename
  account : ∀ name, dir name =
    (db.users.find? fun u => collation.same u.username name).map fun u =>
      ⟨u.password, u.rolename.getD ""⟩

variable {collation}

theorem Refines.empty : Refines collation {} Directory.empty := by
  refine ⟨List.Pairwise.nil, ?_, fun name => rfl⟩
  intro u mem
  cases mem

theorem Refines.free_iff {db : AuthDb} {dir : Directory} (refines : Refines collation db dir)
    (name : String) :
    dir name = none ↔ db.users.any (fun u => collation.same u.username name) = false := by
  rw [refines.account, Option.map_eq_none_iff, List.find?_eq_none, List.any_eq_false]

theorem Refines.register {db : AuthDb} {dir : Directory} (refines : Refines collation db dir)
    {user : CAddUserReq} (free : dir user.username = none) (rolename : Plain user.rolename)
    (tokens : TokenTable) (nextUserId lastInsertId : Nat) :
    Refines collation
      ⟨db.users ++ [⟨user.username, user.password, some user.rolename⟩], nextUserId, tokens,
        lastInsertId⟩ (dir.register collation user) := by
  have others := (refines.free_iff _).mp free
  rw [List.any_eq_false] at others
  refine ⟨?_, fun u mem => ?_, fun name => ?_⟩
  · refine List.pairwise_append.mpr ⟨refines.distinct, List.pairwise_singleton _ _, ?_⟩
    intro u mem v new
    obtain rfl := List.mem_singleton.mp new
    exact Bool.eq_false_iff.mpr (others u mem)
  · rcases List.mem_append.mp mem with old | new
    · exact refines.rolename u old
    · obtain rfl := List.mem_singleton.mp new
      exact ⟨_, rfl, cstr_eq_self rolename.1⟩
  · rw [Directory.register, List.find?_append]
    by_cases own : collation.same user.username name
    · have earlier : db.users.find? (fun u => collation.same u.username name) = none := by
        rw [List.find?_eq_none]
        intro u mem same
        exact others u mem (collation.trans same (collation.symm own))
      simp [own, earlier]
    · simp [own, refines.account]

/-- The rows that a login finds are that of its account, if the password is its password. -/
theorem Refines.rows {db : AuthDb} {dir : Directory} (refines : Refines collation db dir)
    (req : CLoginReq) :
    (credentialSelect req).rows collation.same db.users =
      (((db.users.find? fun u => collation.same u.username req.username).filter
        fun u => collation.same u.password req.password).map
          fun u => (some u.username, u.rolename)).toList := by
  have once : ∀ users : List AuthRow,
      (users.Pairwise fun u v => collation.same u.username v.username = false) →
      users.filter (fun u => collation.same u.username req.username) =
        (users.find? fun u => collation.same u.username req.username).toList := by
    intro users distinct
    induction users with
    | nil => rfl
    | cons u users ih =>
      obtain ⟨first, rest⟩ := List.pairwise_cons.mp distinct
      by_cases own : collation.same u.username req.username
      · have none : users.filter (fun u => collation.same u.username req.username) = [] := by
          rw [List.filter_eq_nil_iff]
          intro v mem same
          have same' := collation.trans own (collation.symm same)
          rw [first v mem] at same'
          cases same'
        simp [own, none]
      · simp [own, ih rest]
  rw [rows_credentialSelect]
  have nested : db.users.filter (fun u =>
      collation.same u.username req.username && collation.same u.password req.password) =
      (db.users.filter fun u => collation.same u.username req.username).filter
        fun u => collation.same u.password req.password := by
    rw [List.filter_filter]
    simp only [Bool.and_comm]
  rw [nested, once _ refines.distinct]
  cases db.users.find? fun u => collation.same u.username req.username with
  | none => rfl
  | some u =>
    by_cases own : collation.same u.password req.password <;> simp [own, Option.filter]

/-- A name is accepted exactly if the directory has none like it. -/
theorem Refines.accepts {db : AuthDb} {dir : Directory} (refines : Refines collation db dir)
    {user : CAddUserReq} (username : Plain user.username) (password : Plain user.password)
    (rolename : Plain user.rolename) :
    db.accepts collation (addUserSql user) = decide (dir user.username = none) := by
  rw [AuthDb.accepts, insertedRow_addUserSql username password rolename]
  rw [Bool.eq_iff_iff, Bool.not_eq_true', decide_eq_true_iff, refines.free_iff]

/-- The service answers a request as the directory does, and is still one. -/
def Agrees (collation : Collation) (served : List UserReply × AuthDb)
    (meant : List UserReply × Directory) : Prop :=
  served.1 = meant.1 ∧ Refines collation served.2 meant.2

theorem Refines.addUser [Protobuf] {db : AuthDb} {dir : Directory}
    (refines : Refines collation db dir)
    {msg : List UInt8} {executed : Bool} (plain : (UserRequest.addUser msg executed).Plain) :
    Agrees collation (db.serve collation (.addUser msg executed))
      (dir.serve collation (.addUser msg executed)) := by
  obtain ⟨username, password, rolename⟩ := plain
  unfold AuthDb.serve Directory.serve
  dsimp only
  rw [refines.accepts username password rolename]
  unfold addUserReq
  cases parsed : Message.parse (M := CAddUserReq) msg with
  | mk ok user =>
    rw [parsed] at username password rolename
    cases ok with
    | false => exact ⟨rfl, refines⟩
    | true =>
      by_cases added : executed ∧ dir user.username = none
      · have registered := refines.register added.2 rolename db.tokens (db.nextUserId + 1)
          db.nextUserId
        simp only [Auth.addUser, added, decide_true, Bool.and_self, if_true, and_self,
          cstr_eq_self username.1, cstr_eq_self password.1, cstr_eq_self rolename.1]
        exact ⟨rfl, registered⟩
      · have failed : (executed && decide (dir user.username = none)) = false := by
          simpa using added
        simp only [Auth.addUser, failed, added, if_false, Bool.false_eq_true]
        exact ⟨rfl, refines⟩

/-- Other tables do not matter. -/
theorem Refines.of_users {db db' : AuthDb} {dir : Directory} (refines : Refines collation db dir)
    (same : db'.users = db.users) : Refines collation db' dir := by
  refine ⟨?_, ?_, ?_⟩
  · rw [same]
    exact refines.distinct
  · rw [same]
    exact refines.rolename
  · rw [same]
    exact refines.account

theorem Directory.login_refused {dir : Directory} {req : CLoginReq} {o : Outcomes}
    (barred : ¬Directory.Admits req o) : dir.login collation req o = .refused := by
  unfold Directory.login
  split
  · rfl
  · rw [if_neg fun both => barred both.1]

/-- A login that finds the rows of its account. -/
theorem Refines.loginReply {db : AuthDb} {dir : Directory} (refines : Refines collation db dir)
    {req : CLoginReq} {o : Outcomes} {ended : AuthDb × LoginState} {ret : Bool} {res : CLoginRes}
    {row : Option TokenRow} (passed : filtered req.username = false)
    (answers : Answers { o with select := { o.select with
      rows := (credentialSelect req).rows collation.same db.users } } db req ended ret res row) :
    (if res.res = .OK ∧ res.username ≠ "" then UserReply.welcome res.rolename else .refused) =
      dir.login collation req o := by
  obtain ⟨-, -, ok, name, role⟩ := answers
  dsimp only at ok role
  rw [refines.rows] at ok role
  unfold Directory.login
  rw [refines.account]
  cases found : db.users.find? fun u => collation.same u.username req.username with
  | none =>
    rw [found] at ok
    have refused : res.res ≠ .OK := by simp [ok]
    simp [refused]
  | some user =>
    rw [found] at ok role
    obtain ⟨rolename, stored, kept⟩ := refines.rolename user (List.mem_of_find?_eq_some found)
    dsimp only [Option.map_some]
    by_cases own : collation.same user.password req.password
    · simp only [Option.filter, own, if_true, Option.map_some, Option.toList_some, ne_eq,
        List.cons_ne_nil, not_false_eq_true, and_true] at ok role
      by_cases succeeds : o.select.ok ∧ o.insert.ok ∧ o.selectToken.ok
      · have welcome := ok.mpr succeeds
        have rolename_eq := role welcome _ _ rfl
        rw [stored, Option.map_some, Option.getD_some, kept] at rolename_eq
        by_cases named : req.username = ""
        · simp [name welcome, named, Directory.Admits]
        · simp [welcome, name welcome, named, Directory.Admits, succeeds, own, rolename_eq, stored,
            passed]
      · have refused : res.res ≠ .OK := fun welcome => succeeds (ok.mp welcome)
        have barred : ¬Directory.Admits req o := fun admits =>
          succeeds ⟨admits.1, admits.2.1, admits.2.2.1⟩
        simp [refused, barred]
    · have refused : res.res ≠ .OK := by simp [ok, Option.filter, own]
      simp [refused, own]

theorem Refines.login [Protobuf] {db : AuthDb} {dir : Directory}
    (refines : Refines collation db dir)
    {head : CMsgHead} {msg : CMsg} {o : Outcomes} (plain : (UserRequest.login head msg o).Plain) :
    Agrees collation (db.serve collation (.login head msg o))
      (dir.serve collation (.login head msg o)) := by
  obtain ⟨username, password⟩ := plain
  unfold AuthDb.serve Directory.serve
  dsimp only
  rw [finds_plain collation db username password]
  unfold loginReq
  cases parsed : Message.parse (M := CLoginReq) msg.bytes with
  | mk ok req =>
    cases ok with
    | false => exact ⟨rfl, refines⟩
    | true =>
      dsimp only
      by_cases passed : filtered req.username
      · have barred : ¬Directory.Admits req o := fun admits => by
          rw [admits.2.2.2.1] at passed
          cases passed
        have ended (o : Outcomes) : Auth.login 1800 o db req {} = (db, .done false {} none) := by
          simp [Auth.login, Outcomes.list, LoginState.run, LoginState.step, passed]
        rw [ended, Directory.login_refused barred]
        exact ⟨rfl, refines⟩
      · replace passed := Bool.eq_false_iff.mpr passed
        obtain ⟨ret, res, row, answers⟩ := login_answers 1800 { o with select := { o.select with
          rows := (credentialSelect req).rows collation.same db.users } } db passed {}
        have reply := refines.loginReply passed answers
        rw [← Prod.mk.eta (p := Auth.login _ _ _ _ _), answers.done]
        exact ⟨congrArg (fun r => [r]) reply, refines.of_users answers.users⟩

theorem Refines.step [Protobuf] {db : AuthDb} {dir : Directory} (refines : Refines collation db dir)
    {r : UserRequest} (plain : r.Plain) :
    Agrees collation (db.serve collation r) (dir.serve collation r) := by
  cases r with
  | addUser msg executed => exact refines.addUser plain
  | login head msg o => exact refines.login plain

theorem Refines.run [Protobuf] {db : AuthDb} {dir : Directory} (refines : Refines collation db dir)
    {requests : List UserRequest} (plain : ∀ r ∈ requests, r.Plain) :
    Agrees collation (transduce (AuthDb.serve collation) db requests)
      (transduce (Directory.serve collation) dir requests) := by
  induction requests generalizing db dir with
  | nil => exact ⟨rfl, refines⟩
  | cons r requests ih =>
    obtain ⟨reply, next⟩ := refines.step (plain r List.mem_cons_self)
    obtain ⟨replies, last⟩ := ih next fun r mem => plain r (List.mem_cons_of_mem _ mem)
    refine ⟨?_, last⟩
    simp only [transduce, reply, replies]

theorem no_tokens : ∀ row ∈ ([] : List TokenRow), row.id < 1 := nofun

/-- The tables as they are created. -/
def AuthDb.created : AuthDb := { tokens := { below := no_tokens } }

variable (collation) in
/-- The service since its tables were created. -/
def served [Protobuf] (requests : List UserRequest) : List UserReply × AuthDb :=
  transduce (AuthDb.serve collation) .created requests

/-- Any requests are answered as a directory answers them that was empty at the start. -/
theorem served_directory [Protobuf] {requests : List UserRequest}
    (plain : ∀ r ∈ requests, r.Plain) : (served collation requests).1 =
      (transduce (Directory.serve collation) Directory.empty requests).1 ∧
    Refines collation (served collation requests).2
      (transduce (Directory.serve collation) Directory.empty requests).2 :=
  Refines.empty.run plain

section Ann

open Library.Wire.Reader

/-- `ann` registers with the password `x`. -/
def annBytes : List UInt8 :=
  [0x0a, 3, 0x61, 0x6e, 0x6e, 0x12, 1, 0x78, 0x1a, 5, 0x61, 0x64, 0x6d, 0x69, 0x6e]

/-- Someone else registers the name with the password `y`. -/
def otherAnnBytes : List UInt8 := [0x0a, 3, 0x61, 0x6e, 0x6e, 0x12, 1, 0x79]

def loginBytes (password : UInt8) : CMsg :=
  CMsg.ofBytes [0x0a, 3, 0x61, 0x6e, 0x6e, 0x12, 1, password]

theorem served_directory_ann :
    (served .exact [.addUser annBytes true, .addUser otherAnnBytes true,
      .login {} (loginBytes 0x78) {}, .login {} (loginBytes 0x79) {}]).1 =
    [.added, .refused, .welcome "admin", .refused] := by
  have plain : ∀ r ∈ [UserRequest.addUser annBytes true, .addUser otherAnnBytes true,
      .login {} (loginBytes 0x78) {}, .login {} (loginBytes 0x79) {}], r.Plain := by
    decide +kernel
  rw [(served_directory plain).1]
  decide +kernel

end Ann

/-! ## Accounts are for ever -/

/-- Names that are the same have the same account. -/
theorem Refines.congr {db : AuthDb} {dir : Directory} (refines : Refines collation db dir)
    {name name' : String} (same : collation.same name name') : dir name = dir name' := by
  have alike (u : AuthRow) :
      collation.same u.username name = collation.same u.username name' := by
    rw [Bool.eq_iff_iff]
    exact ⟨fun h => collation.trans h same, fun h => collation.trans h (collation.symm same)⟩
  rw [refines.account, refines.account]
  simp only [alike]

theorem Refines.keeps [Protobuf] {db : AuthDb} {dir : Directory}
    (refines : Refines collation db dir)
    {name : String} {account : Account} (known : dir name = some account) (r : UserRequest) :
    (dir.serve collation r).2 name = some account := by
  cases r with
  | addUser msg executed =>
    dsimp only [Directory.serve]
    split
    · exact known
    next user _ =>
      split
      next free =>
        have other : ¬collation.same user.username name := by
          intro same
          rw [refines.congr same, known] at free
          exact absurd free.2 (by simp)
        simpa [Directory.register, other] using known
      · exact known
  | login head msg o =>
    dsimp only [Directory.serve]
    split <;> exact known

/-- Whoever is added has the account from then on. -/
theorem Directory.serve_added [Protobuf] {dir : Directory} {msg : List UInt8} {executed : Bool}
    (added : (dir.serve collation (.addUser msg executed)).1 = [.added]) :
    let user := (Message.parse (M := CAddUserReq) msg).2
    (dir.serve collation (.addUser msg executed)).2 user.username =
      some ⟨user.password, user.rolename⟩ := by
  dsimp only [Directory.serve] at added ⊢
  split at added
  · simp at added
  next user parsed =>
    split at added
    next free => simp [parsed, free, Directory.register, collation.refl]
    · simp at added

theorem Refines.keeps_run [Protobuf] {db : AuthDb} {dir : Directory}
    (refines : Refines collation db dir)
    {name : String} {account : Account} (known : dir name = some account)
    {requests : List UserRequest} (plain : ∀ r ∈ requests, r.Plain) :
    (transduce (Directory.serve collation) dir requests).2 name = some account := by
  induction requests generalizing db dir with
  | nil => exact known
  | cons r requests ih =>
    have next := (refines.step (plain r List.mem_cons_self)).2
    exact ih next (refines.keeps known r) fun r mem => plain r (List.mem_cons_of_mem _ mem)

theorem Refines.login_parsed [Protobuf] {db : AuthDb} {dir : Directory}
    (refines : Refines collation db dir)
    (head : CMsgHead) {msg : CMsg} (o : Outcomes) {req : CLoginReq}
    (parsed : Message.parse msg.bytes = (true, req)) (username : Plain req.username)
    (password : Plain req.password) :
    (db.serve collation (.login head msg o)).1 = [dir.login collation req o] := by
  have plain : (UserRequest.login head msg o).Plain := by
    dsimp only [UserRequest.Plain]
    rw [parsed]
    exact ⟨username, password⟩
  rw [(refines.login plain).1]
  dsimp only [Directory.serve]
  rw [parsed]

/-- A login after a registration and other requests. -/
theorem Refines.registered [Protobuf] {db : AuthDb} {dir : Directory}
    (refines : Refines collation db dir)
    {between : List UserRequest} {msg : List UInt8} {executed : Bool} {head : CMsgHead}
    {loginMsg : CMsg} {o : Outcomes} {req : CLoginReq}
    (plain : ∀ r ∈ .addUser msg executed :: between, r.Plain)
    (added : (db.serve collation (.addUser msg executed)).1 = [.added])
    (parsed : Message.parse loginMsg.bytes = (true, req))
    (username : Plain req.username) (password : Plain req.password)
    (same : collation.same (Message.parse (M := CAddUserReq) msg).2.username req.username) :
    ((transduce (AuthDb.serve collation) (db.serve collation (.addUser msg executed)).2
        between).2.serve collation (.login head loginMsg o)).1 =
      [if Directory.Admits req o ∧
          collation.same (Message.parse (M := CAddUserReq) msg).2.password req.password then
        .welcome (Message.parse (M := CAddUserReq) msg).2.rolename
      else .refused] := by
  have later : ∀ r ∈ between, r.Plain := fun r mem => plain r (List.mem_cons_of_mem _ mem)
  obtain ⟨reply, registered⟩ := refines.addUser (plain _ List.mem_cons_self)
  have known := Directory.serve_added (reply.symm.trans added)
  have kept := registered.keeps_run known later
  have now := (registered.run later).2
  rw [now.login_parsed head o parsed username password]
  dsimp only [Directory.login]
  rw [← now.congr same, kept]

theorem served_split [Protobuf] (before between : List UserRequest) (r : UserRequest) :
    (served collation (before ++ r :: between)).2 =
      (transduce (AuthDb.serve collation) ((served collation before).2.serve collation r).2
        between).2 := by
  rw [served, transduce_append, transduce]
  rfl

/-- Whoever has registered a name logs in with it and the password of that time, whatever other
requests come before and in between, and nobody logs in with another password. -/
theorem account_stays [Protobuf] {before between : List UserRequest} {msg : List UInt8}
    {executed : Bool} {head : CMsgHead} {loginMsg : CMsg} {o : Outcomes} {req : CLoginReq}
    (plain : ∀ r ∈ before ++ .addUser msg executed :: between, r.Plain)
    (added : ((served collation before).2.serve collation (.addUser msg executed)).1 = [.added])
    (parsed : Message.parse loginMsg.bytes = (true, req))
    (username : Plain req.username) (password : Plain req.password)
    (same : collation.same (Message.parse (M := CAddUserReq) msg).2.username req.username) :
    ((served collation (before ++ .addUser msg executed :: between)).2.serve collation
        (.login head loginMsg o)).1 =
      [if Directory.Admits req o ∧
          collation.same (Message.parse (M := CAddUserReq) msg).2.password req.password then
        .welcome (Message.parse (M := CAddUserReq) msg).2.rolename
      else .refused] := by
  have earlier : ∀ r ∈ before, r.Plain := fun r mem => plain r (List.mem_append_left _ mem)
  have start : Refines collation (served collation before).2 _ := (Refines.empty.run earlier).2
  rw [served_split]
  exact start.registered (fun r mem => plain r (List.mem_append_right _ mem)) added parsed username
    password same

open Library.Wire.Reader

theorem account_stays_ann :
    ((served .exact ([] ++ .addUser annBytes true :: [.addUser otherAnnBytes true])).2.serve .exact
      (.login {} (loginBytes 0x78) {})).1 = [.welcome "admin"] := by
  have plain : ∀ r ∈ [] ++ UserRequest.addUser annBytes true :: [.addUser otherAnnBytes true],
      r.Plain := by
    decide +kernel
  have added : ((served .exact []).2.serve .exact (.addUser annBytes true)).1 = [.added] := by
    decide +kernel
  have parsed : Message.parse (loginBytes 0x78).bytes = (true, (⟨"ann", "x"⟩ : CLoginReq)) := by
    decide +kernel
  rw [account_stays plain added parsed (by decide) (by decide) (by decide +kernel)]
  decide +kernel

end MicroserviceFramework.Auth
