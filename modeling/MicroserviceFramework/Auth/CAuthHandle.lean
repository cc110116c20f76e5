import MicroserviceFramework.Auth.Tokens
import MicroserviceFramework.Platform.CMsgCom

/-!
# The handlers of the user system

The handlers of `CAuthHandle`, on the body of a request. `loginReq` is silent when the request
cannot be parsed, and keeps the header of the request for the route back; `addUserReq` answers
always, and with a header of its own.

What `login` returns is only logged: whether it succeeded the client has to see from the answer.
-/

namespace MicroserviceFramework.Auth

open Library.Wire Platform CMsgType

instance : Message CAddUserReq where
  layout := (Layout.values [.string, .string, .string]).iso
    (fun (username, password, rolename, ()) => ⟨username, password, rolename⟩)
    (fun r => (r.username, r.password, r.rolename, ())) (fun _ => rfl) fun _ => rfl
  few := by decide

section

variable [Protobuf]

/-- The header and the message that are sent, if any. -/
def loginReq (o : Outcomes) (db : AuthDb) (head : CMsgHead) (msg : CMsg) :
    AuthDb × Option (CMsgHead × CLoginRes) :=
  match Message.parse (M := CLoginReq) msg.bytes with
  | (false, _) => (db, none)
  | (true, req) =>
    match login 1800 o db req {} with
    | (db, .done _ res _) => (db, some ({ head with msgType := MSG_LOGIN_RES }, res))
    | (db, _) => (db, none)

def addUserReq (o : Outcome) (db : AuthDb) (msg : List UInt8) :
    AuthDb × Option (CMsgHead × CMessageRes) :=
  match Message.parse (M := CAddUserReq) msg with
  | (false, _) =>
    (db, some (sendMsg MSG_ADD_USER_RES
      ⟨.ERROR, Kind.utf8 "CAuthHandle::addUserReq failed: ParseFromArray failed!"⟩))
  | (true, req) =>
    match addUser o db req with
    | (db, false) =>
      (db, some (sendMsg MSG_ADD_USER_RES
        ⟨.ERROR, Kind.utf8 "CAuthDAO::get()->addUser failed: addUser failed!"⟩))
    | (db, true) =>
      (db, some (sendMsg MSG_ADD_USER_RES ⟨.OK, Kind.utf8 "CAuthHandle::addUserReq OK"⟩))

/-! ## What a login is answered -/

/-- What the answer to a login should say, given what `login` returned. -/
structure SoundAnswer (o : Outcomes) (db db' : AuthDb) (req : CLoginReq) (ret : Bool)
    (res : CLoginRes) : Prop where
  ok_iff : res.res = .OK ↔ ret = true
  username : ret = true → res.username = req.username
  /-- If the credentials are looked up in `cms_auth`, the role is the user's. -/
  role : ret = true → (∀ answer ∈ o.select.rows, ∃ user ∈ db.users,
      user.username = req.username ∧ answer = (some user.username, user.rolename)) →
    ∃ user ∈ db.users, user.username = req.username ∧
      res.rolename = (user.rolename.map cstr).getD ""
  /-- The token was in `cms_token` when it was looked up, and is still, unless it is expired. -/
  token : ret = true → ∃ row, row.token = res.token ∧
    row ∈ (LoginState.run 1800 [o.select, o.insert, o.insertId] db (.start req {})).1.tokens.rows ∧
    (¬row.expired_time < o.insert.now → row ∈ db'.tokens.rows)

/-- What the handler sends says whether the login succeeded, and for whom, exactly when the
username passes the filter. -/
theorem loginReq_sound_iff (o : Outcomes) (db : AuthDb) (head : CMsgHead) {msg : CMsg}
    {req : CLoginReq} (parsed : Message.parse msg.bytes = (true, req)) :
    (∃ ret res row, (login 1800 o db req {}).2 = .done ret res row ∧
      (loginReq o db head msg).2 = some ({ head with msgType := MSG_LOGIN_RES }, res) ∧
      SoundAnswer o db (login 1800 o db req {}).1 req ret res) ↔
    filtered req.username = false := by
  rcases login_cases 1800 o db req {} with
    ⟨refused, ended⟩ | ⟨passed, db', res', row', ended, error⟩ |
    ⟨passed, answer, found, db', res', row', before, ended, ok, username, role, token, mem⟩
  · simp only [refused, Bool.true_eq_false, iff_false, not_exists, not_and]
    intro ret res row returned _ sound
    rw [ended] at returned
    obtain ⟨rfl, rfl, rfl⟩ := LoginState.done.inj returned
    exact absurd (sound.ok_iff.mp rfl) (by simp)
  · refine iff_of_true ⟨false, res', row', by rw [ended], ?_, ?_⟩ passed
    · simp only [loginReq, parsed, ended]
    · constructor <;> simp [error]
  · refine iff_of_true ⟨true, res', some row', by rw [ended], ?_, ?_⟩ passed
    · simp only [loginReq, parsed, ended]
    · constructor
      case ok_iff => simp [ok]
      case username => exact fun _ => username
      case role =>
        intro _ honest
        obtain ⟨user, registered, same, rfl⟩ := honest answer found
        exact ⟨user, registered, same, role⟩
      case token =>
        intro _
        rw [before, ended]
        refine ⟨row', token.symm, mem, fun valid => ?_⟩
        dsimp only
        split
        · exact TokenTable.mem_deleteExpired.mpr ⟨mem, valid⟩
        · exact mem

end

open Reader

/-- The password of `ann` is right, and every statement succeeds. -/
def annsLogin : Outcomes where
  select := { rows := [(some "ann", some "admin")] }
  insert := { uuid := "t", now := 100 }

/-- `ann` is in the table, and is answered with her name, her role and the token that was made. -/
theorem loginReq_sound_ann :
    let req : CLoginReq := ⟨"ann", "x"⟩
    let db : AuthDb := { users := [⟨"ann", "x", some "admin"⟩] }
    let res : CLoginRes := ⟨.OK, "t", 1900, "admin", "ann"⟩
    Message.parse (CMsg.ofBytes (Message.serialize req)).bytes = (true, req) ∧
    (loginReq annsLogin db {} (.ofBytes (Message.serialize req))).2 =
      some ({ msgType := MSG_LOGIN_RES }, res) ∧
    (∀ answer ∈ annsLogin.select.rows, ∃ user ∈ db.users,
      user.username = req.username ∧ answer = (some user.username, user.rolename)) ∧
    SoundAnswer annsLogin db (login 1800 annsLogin db req {}).1 req true res := by
  intro req db res
  have parsed : Message.parse (CMsg.ofBytes (Message.serialize req)).bytes = (true, req) := by
    decide +kernel
  obtain ⟨ret, res', row, ended, reply, sound⟩ :=
    (loginReq_sound_iff annsLogin db {} parsed).mpr (by decide)
  have succeeded : (login 1800 annsLogin db req {}).2 =
      .done true res (some ⟨1, "ann", "admin", "t", 1900⟩) := by decide +kernel
  obtain ⟨rfl, rfl, -⟩ := LoginState.done.inj (ended.symm.trans succeeded)
  exact ⟨parsed, reply, by decide, sound⟩

/-- A login as the user `;` fails, and the answer is `OK`. -/
theorem loginReq_filtered_ok :
    (login 1800 {} {} { username := ";" } {}).2 = .done false {} none ∧
    (loginReq {} {} {} (CMsg.ofBytes [0x0a, 1, 0x3b])).2 =
      some ({ msgType := MSG_LOGIN_RES }, {}) ∧
    ({} : CLoginRes).res = .OK := by
  decide

end MicroserviceFramework.Auth
