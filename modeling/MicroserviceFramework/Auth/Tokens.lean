import MicroserviceFramework.Auth.Login
import MicroserviceFramework.Library.Interference

/-!
# Concurrent logins

Any number of `login` and `addUser` calls share one connection, and the scheduler picks the call
that makes the next step. `addUser` holds `authMtx` for its only step, and `login` takes no lock,
so the lock orders nothing.

A login reads back the row it inserted by the id of the last insert. If nobody inserts between
its insert and `getInsertId`, that is its own row.
-/

namespace MicroserviceFramework.Auth

open Library

structure CAddUserReq where
  username : String := ""
  password : String := ""
  rolename : String := ""
  deriving DecidableEq, Repr

inductive CallState where
  | login (state : LoginState)
  /-- Before its insert. -/
  | addUser (user : CAddUserReq)
  | added (ret : Bool)
  deriving DecidableEq, Repr

/-- `CAuthDAO::addUser`, for a statement that succeeds or not. -/
def addUser (o : Outcome) (db : AuthDb) (user : CAddUserReq) : AuthDb × Bool :=
  if o.ok then
    ({ db with
      users := db.users ++ [⟨cstr user.username, cstr user.password, some (cstr user.rolename)⟩]
      nextUserId := db.nextUserId + 1
      lastInsertId := db.nextUserId }, true)
  else (db, false)

namespace CallState

def step (timeoutSec : Int32) (o : Outcome) (db : AuthDb) : CallState → AuthDb × CallState
  | login state =>
    ((state.step timeoutSec o db).1, login (state.step timeoutSec o db).2)
  | addUser user => ((Auth.addUser o db user).1, added (Auth.addUser o db user).2)
  | added ret => (db, added ret)

/-- The next step of the call is an insert. -/
def inserts : CallState → Bool
  | login (.insert _) => true
  | addUser _ => true
  | _ => false

/-- The call has inserted and not yet asked for the id. -/
def awaitsId : CallState → Bool
  | login (.insertId ..) => true
  | _ => false

end CallState

abbrev AuthServer (θ : Type*) := Parties θ AuthDb CallState

namespace AuthServer

variable {θ : Type*} [DecidableEq θ]

def machine (timeoutSec : Int32) : Machine (AuthServer θ) (θ × Outcome) :=
  Parties.machine (CallState.step timeoutSec)

/-- Nothing is inserted while a login awaits its id. -/
def Uninterrupted (s : AuthServer θ) (l : θ × Outcome) : Prop :=
  l.2.ok → (s.party l.1).inserts → ∀ c, ¬(s.party c).awaitsId

end AuthServer

/-! ## What other calls leave alone -/

/-- Rows go, and rows come under new ids. -/
structure TokenTable.Later (t t' : TokenTable) : Prop where
  nextId : t.nextId ≤ t'.nextId
  rows : ∀ row ∈ t'.rows, row ∈ t.rows ∨ t.nextId ≤ row.id

namespace TokenTable.Later

variable {t t' : TokenTable}

theorem refl (t : TokenTable) : Later t t := ⟨Nat.le_refl _, fun _ mem => .inl mem⟩

theorem insert {row : TokenRow} {username rolename token : String} {expired_time : Int32}
    (created : t.insert username rolename token expired_time = (row, t')) : Later t t' := by
  obtain ⟨rfl, rfl⟩ := Prod.mk.inj created
  refine ⟨Nat.le_succ _, fun row mem => ?_⟩
  rcases List.mem_append.mp mem with old | new
  · exact .inl old
  · exact .inr (by simp [List.mem_singleton.mp new])

theorem deleteExpired (t : TokenTable) (now : Int32) : Later t (t.deleteExpired now) where
  nextId := Nat.le_refl _
  rows _ mem := .inl (mem_deleteExpired.mp mem).1

end TokenTable.Later

theorem LoginState.step_later (timeoutSec : Int32) (o : Outcome) (db : AuthDb) (s : LoginState) :
    db.tokens.Later (s.step timeoutSec o db).1.tokens := by
  fun_cases LoginState.step timeoutSec o db s
  case case4 created => exact .insert created
  case case9 =>
    dsimp only
    split
    · exact .deleteExpired ..
    · exact .refl _
  all_goals exact .refl _

theorem CallState.step_later (timeoutSec : Int32) (o : Outcome) (db : AuthDb) (call : CallState) :
    db.tokens.Later (call.step timeoutSec o db).1.tokens := by
  cases call with
  | login state => exact state.step_later timeoutSec o db
  | addUser user =>
    simp only [step, Auth.addUser]
    split <;> exact .refl _
  | added => exact .refl _

/-- Only an insert that succeeds changes the last id. -/
theorem CallState.step_lastInsertId (timeoutSec : Int32) {o : Outcome} {call : CallState}
    (quiet : ¬(o.ok ∧ call.inserts)) (db : AuthDb) :
    (call.step timeoutSec o db).1.lastInsertId = db.lastInsertId := by
  cases call with
  | login state =>
    simp only [step]
    fun_cases LoginState.step timeoutSec o db state
    case case4 ok _ _ _ => exact absurd ⟨ok, rfl⟩ quiet
    case case9 => dsimp only; split <;> rfl
    all_goals rfl
  | addUser user =>
    have failed : ¬o.ok := fun ok => quiet ⟨ok, rfl⟩
    simp [step, Auth.addUser, failed]
  | added => rfl

/-! ## What a login knows about its row -/

/-- The row is the user's, and its id selects no other, now or later. -/
structure AuthDb.Mine (db : AuthDb) (req : CLoginReq) (row : TokenRow) : Prop where
  username : row.username = cstr req.username
  id_lt : row.id < db.tokens.nextId
  only : ∀ other ∈ db.tokens.rows, other.id = row.id → other = row

theorem AuthDb.Mine.later {db db' : AuthDb} {req : CLoginReq} {row : TokenRow}
    (mine : db.Mine req row) (later : db.tokens.Later db'.tokens) : db'.Mine req row where
  username := mine.username
  id_lt := Nat.lt_of_lt_of_le mine.id_lt later.nextId
  only other mem same := by
    rcases later.rows other mem with old | new
    · exact mine.only other old same
    · have less := mine.id_lt
      omega

theorem AuthDb.Mine.insert {db : AuthDb} {req : CLoginReq} {row : TokenRow} {tokens : TokenTable}
    {rolename token : String} {expired_time : Int32} (users : List AuthRow) (id userId : Nat)
    (created : db.tokens.insert (cstr req.username) rolename token expired_time = (row, tokens)) :
    AuthDb.Mine ⟨users, userId, tokens, id⟩ req row := by
  obtain ⟨rfl, rfl⟩ := Prod.mk.inj created
  refine ⟨rfl, Nat.lt_succ_self _, fun other mem same => ?_⟩
  rcases List.mem_append.mp mem with old | new
  · have less := db.tokens.below other old
    exact absurd same (Nat.ne_of_lt less)
  · exact List.mem_singleton.mp new

/-- `token` is that of the row that the login inserted, which is the user's. -/
def OwnToken (req : CLoginReq) (row : Option TokenRow) (token : String) : Prop :=
  ∃ own, row = some own ∧ own.token = token ∧ own.username = cstr req.username

theorem ownToken_some {req : CLoginReq} {own : TokenRow} {token : String} :
    OwnToken req (some own) token ↔ own.token = token ∧ own.username = cstr req.username := by
  simp [OwnToken]

/-- What holds of a login of `req` in each of its states, if nobody interrupts it. -/
def LoginState.Knows (db : AuthDb) (req : CLoginReq) : LoginState → Prop
  | start req' _ => req' = req
  | insert res => res.username = req.username
  | insertId _ _ _ row => db.Mine req row ∧ db.lastInsertId = row.id
  | select _ _ _ row id => db.Mine req row ∧ id = row.id
  | delete res _ row => OwnToken req (some row) res.token
  | done ret res row => ret → OwnToken req row res.token

theorem LoginState.Knows.step {db : AuthDb} {req : CLoginReq} {s : LoginState} (timeoutSec : Int32)
    (o : Outcome) (knows : s.Knows db req) :
    (s.step timeoutSec o db).2.Knows (s.step timeoutSec o db).1 req := by
  fun_cases LoginState.step timeoutSec o db s
  case case3 => exact congrArg CLoginReq.username knows
  case case4 res _ ok row tokens created =>
    have same : res.username = req.username := knows
    rw [same] at created
    exact ⟨.insert _ _ _ created, rfl⟩
  case case6 => exact knows
  case case8 row _ found selected =>
    obtain ⟨mine, rfl⟩ := knows
    split at selected
    · have own := mine.only found (List.mem_of_find?_eq_some selected)
        (by simpa using List.find?_some selected)
      exact ⟨row, rfl, by rw [own], mine.username⟩
    · simp at selected
  case case9 => exact fun _ => knows
  case case10 => exact knows
  all_goals exact nofun

/-- The others keep it, as long as they do not insert before the login asks for its id. -/
theorem LoginState.Knows.other {db db' : AuthDb} {req : CLoginReq} {s : LoginState}
    (knows : s.Knows db req) (later : db.tokens.Later db'.tokens)
    (quiet : (CallState.login s).awaitsId → db'.lastInsertId = db.lastInsertId) :
    s.Knows db' req := by
  cases s with
  | insertId => exact ⟨knows.1.later later, (quiet rfl).trans knows.2⟩
  | select => exact ⟨knows.1.later later, knows.2⟩
  | _ => exact knows

namespace AuthServer

variable {θ : Type*} [DecidableEq θ] {timeoutSec : Int32}

/-- Two users with a row each in `cms_auth`, both logging in. -/
def twoLogins : AuthServer Bool where
  shared := { users := [⟨"a", "p", some "user"⟩, ⟨"b", "q", some "user"⟩], nextUserId := 3 }
  party
    | false => .login (.start { username := "a", password := "p" } {})
    | true => .login (.start { username := "b", password := "q" } {})

/-- What MySQL answers to a statement about `user`. -/
def answer (user : String) : Outcome where
  rows := [(some user, some "user")]
  uuid := user ++ "-uuid"
  now := 1000

/-- User `b` inserts when `a` has its id. -/
def inTurn : List (Bool × Outcome) :=
  [(false, answer "a"), (true, answer "b"), (false, answer "a"), (false, answer "a"),
    (true, answer "b"), (true, answer "b"), (false, answer "a"), (false, answer "a")]

/-- User `b` inserts between the insert of `a` and its `getInsertId`. -/
def interrupted : List (Bool × Outcome) :=
  [(false, answer "a"), (true, answer "b"), (false, answer "a"), (true, answer "b"),
    (false, answer "a"), (false, answer "a"), (false, answer "a")]

end AuthServer

end MicroserviceFramework.Auth
