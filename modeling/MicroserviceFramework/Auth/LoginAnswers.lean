import MicroserviceFramework.Auth.CAuthClient
import MicroserviceFramework.Auth.CAuthHandle
import MicroserviceFramework.Library.Conversation

/-!
# Which attempt an answer is taken for

`CAuthClient` and the user system, with what is on its way between them. An entry is deleted when a
new attempt begins, but the answer to an older one can come after that. Answers carry the username
only, and some that refuse a login do not even carry that, so it stays until the next.

The user system is in any state when it handles a request: others log in too.
-/

namespace MicroserviceFramework.Auth

open Library Library.Wire Platform

structure LoginSession where
  client : CAuthClient := {}
  /-- The attempts, a username and a password each, and the answers. -/
  link : Conversation (String × String) CLoginRes := {}
  /-- The request that the user system read for an attempt, and what `login` returned for it. -/
  verdicts : Nat → Option (CLoginReq × Bool) := fun _ => none

namespace LoginSession

variable (CMD5Base64 : String → String)

inductive Event where
  /-- `sent` is whether the request gets to the user system. -/
  | LoginReq (username password : String) (sent : Bool)
  /-- `sent` is whether the answer goes out. -/
  | serve (o : Outcomes) (db : AuthDb) (sent : Bool)
  /-- `parsed` is whether `LoginRes` can parse the next answer. -/
  | LoginRes (parsed : Bool)
  /-- A look at the entry of the user, by a call of `getLoginInfo`. -/
  | getLoginInfo (username : String)

/-- The body of the request; larger ones than `maxMsgSize` are refused on arrival. -/
def body (attempt : String × String) : List UInt8 :=
  Message.serialize (CAuthClient.loginReq CMD5Base64 attempt.1 attempt.2)

def answer [Protobuf] (o : Outcomes) (db : AuthDb) (attempt : String × String) : Option CLoginRes :=
  (loginReq o db { msgType := CMsgType.MSG_LOGIN_REQ } (.ofBytes (body CMD5Base64 attempt))).2.map
    (·.2)

def verdict [Protobuf] (o : Outcomes) (db : AuthDb) (attempt : String × String) :
    Option (CLoginReq × Bool) :=
  match Message.parse (M := CLoginReq) (body CMD5Base64 attempt) with
  | (false, _) => none
  | (true, req) =>
    match (login 1800 o db req {}).2 with
    | .done ret _ _ => some (req, ret)
    | _ => none

def step [Protobuf] (s : LoginSession) : Event → Option LoginSession
  | .LoginReq username password sent =>
    let (_, client) := s.client.LoginReq CMD5Base64 username password
    let attempt := (username, password)
    let small : Bool := (body CMD5Base64 attempt).length ≤ maxMsgSize
    some { s with client := client, link := s.link.send attempt (sent && small) }
  | .serve o db sent => do
    let k ← s.link.requests.head?
    let attempt ← s.link.made[k]?
    let link ← s.link.serve fun attempt =>
      if sent then answer CMD5Base64 o db attempt else none
    some { s with
      link := link
      verdicts := Function.update s.verdicts k (verdict CMD5Base64 o db attempt) }
  | .LoginRes parsed => do
    let (res, link) ← s.link.receive
    if parsed then some { s with client := s.client.LoginRes (some res.2), link := link }
    else some { s with client := s.client.LoginRes none, link := s.link.lose }
  | .getLoginInfo _ => some s

def machine [Protobuf] : Machine LoginSession Event := ⟨step CMD5Base64⟩

/-- The last attempt for the user. -/
def Latest (s : LoginSession) (username : String) (k : Nat) (password : String) : Prop :=
  s.link.made[k]? = some (username, password) ∧
    ∀ j password', s.link.made[j]? = some (username, password') → j ≤ k

/-- What `getLoginInfo` returns is what the user system has decided about the last attempt. -/
def Uncrossed (s : LoginSession) : Event → Prop
  | .getLoginInfo username => ∀ info, s.client.look username = some info →
      ∀ k password, s.Latest username k password →
        s.verdicts k = some (CAuthClient.loginReq CMD5Base64 username password, info.isSome)
  | _ => True

/-- When there is an entry, an answer to the last attempt that names the user has arrived. -/
def Answered (s : LoginSession) : Event → Prop
  | .getLoginInfo username => s.client.loginMap username ≠ none →
      ∀ k password, s.Latest username k password →
        ∃ res, (k, res) ∈ s.link.arrived ∧ res.username = username
  | _ => True

end LoginSession

/-! ## Answers and what they are worth -/

/-- A login names nobody in its answer, or the user it was asked for. -/
def LoginState.Names (username : String) : LoginState → Prop
  | .start req res => req.username = username ∧ res.username = ""
  | .insert res | .insertId res .. | .select res .. | .delete res .. => res.username = username
  | .done _ res _ => res.username = "" ∨ res.username = username

theorem LoginState.Names.step {username : String} {state : LoginState}
    (names : state.Names username) (timeoutSec : Int32) (o : Outcome) (db : AuthDb) :
    (state.step timeoutSec o db).2.Names username := by
  cases state with
  | start req res =>
    rw [LoginState.step]
    repeat' split
    · exact .inl names.2
    · exact .inl names.2
    · exact names.1
  | insert res =>
    rw [LoginState.step]
    repeat' split
    · exact names
    · exact .inr names
  | insertId res now expiredTime row => exact names
  | select res now expiredTime row id =>
    rw [LoginState.step]
    repeat' split
    · exact .inr names
    · exact names
  | delete res now row => exact .inr names
  | done ret res row => exact names

theorem LoginState.Names.run {username : String} {state : LoginState}
    (names : state.Names username) (timeoutSec : Int32) (os : List Outcome) (db : AuthDb) :
    (LoginState.run timeoutSec os db state).2.Names username := by
  induction os generalizing db state with
  | nil => exact names
  | cons o os ih => exact ih (names.step timeoutSec o db) _

/-- A login returns; if its answer names anybody, that is the user, and it says what `login`
returned. -/
theorem login_answer (o : Outcomes) (db : AuthDb) (req : CLoginReq) : ∃ ret res row,
    (login 1800 o db req {}).2 = .done ret res row ∧
      (res.username = "" ∨ res.username = req.username ∧ (res.res = .OK ↔ ret = true)) := by
  have start : (LoginState.start req {}).Names req.username := ⟨rfl, rfl⟩
  have names := start.run 1800 o.list db
  rcases login_cases 1800 o db req {} with
    ⟨-, ended⟩ | ⟨-, db', res, row, ended, error⟩ |
    ⟨-, answer, -, db', res, row, -, ended, ok, username, -⟩
  · exact ⟨false, {}, none, by rw [ended], .inl rfl⟩
  · refine ⟨false, res, row, by rw [ended], ?_⟩
    have ended' : LoginState.run 1800 o.list db (.start req {}) = (db', .done false res row) := ended
    rw [ended'] at names
    rcases names with nobody | named
    · exact .inl nobody
    · exact .inr ⟨named, by simp [error]⟩
  · exact ⟨true, res, some row, by rw [ended], .inr ⟨username, by simp [ok]⟩⟩

namespace LoginSession

variable {CMD5Base64 : String → String} {s s' : LoginSession}

/-- What the user system makes of the request of an attempt. -/
theorem verdict_answer [Protobuf] {attempt : String × String}
    (small : ((body CMD5Base64 attempt).length : Int) ≤ maxMsgSize) (o : Outcomes) (db : AuthDb) :
    ∃ ret res, verdict CMD5Base64 o db attempt =
        some (CAuthClient.loginReq CMD5Base64 attempt.1 attempt.2, ret) ∧
      answer CMD5Base64 o db attempt = some res ∧
      (res.username = "" ∨ res.username = attempt.1 ∧ (res.res = .OK ↔ ret = true)) := by
  have fits : (body CMD5Base64 attempt).length < 2 ^ 31 := by
    unfold maxMsgSize at small
    omega
  have parsed : Message.parse (body CMD5Base64 attempt) =
      (true, CAuthClient.loginReq CMD5Base64 attempt.1 attempt.2) :=
    Message.parse_serialize fits
  have bytes : (CMsg.ofBytes (body CMD5Base64 attempt)).bytes = body CMD5Base64 attempt := by
    simp [CMsg.ofBytes, CMsg.bytes]
  obtain ⟨ret, res, row, ended, worth⟩ :=
    login_answer o db (CAuthClient.loginReq CMD5Base64 attempt.1 attempt.2)
  refine ⟨ret, res, ?_, ?_, worth⟩
  · simp only [verdict, parsed, ended]
  · rcases returned : login 1800 o db (CAuthClient.loginReq CMD5Base64 attempt.1 attempt.2) {} with
      ⟨db', state⟩
    rw [returned] at ended
    dsimp only at ended
    subst ended
    simp only [answer, Auth.loginReq, bytes, parsed, returned, Option.map_some]

/-- An answer is worth what the user system decided about its attempt. -/
def Judged (CMD5Base64 : String → String) (s : LoginSession) (r : Nat × CLoginRes) : Prop :=
  ∃ attempt ret, s.link.made[r.1]? = some attempt ∧
    s.verdicts r.1 = some (CAuthClient.loginReq CMD5Base64 attempt.1 attempt.2, ret) ∧
    (r.2.username = "" ∨ r.2.username = attempt.1 ∧ (r.2.res = .OK ↔ ret = true))

/-- The user that an answer is entered for. -/
def user? (res : CLoginRes) : Option String :=
  if res.username = "" then none else some res.username

structure Inv (CMD5Base64 : String → String) (s : LoginSession) : Prop where
  inOrder : s.link.InOrder
  small : ∀ k ∈ s.link.requests, ∀ attempt, s.link.made[k]? = some attempt →
    ((body CMD5Base64 attempt).length : Int) ≤ maxMsgSize
  judged : ∀ r ∈ s.link.answers, s.Judged CMD5Base64 r
  tabled : s.link.Tabled user? s.client.loginMap

theorem Inv.init : ({} : LoginSession).Inv CMD5Base64 := by
  refine ⟨.init, ?_, ?_, ?_⟩
  · intro k mem
    cases mem
  · intro r mem
    cases mem
  · intro username res entry
    cases entry

theorem user?_eq_some {res : CLoginRes} {username : String} :
    user? res = some username ↔ res.username = username ∧ username ≠ "" := by
  unfold user?
  split
  next nobody =>
    rw [nobody]
    constructor
    · intro named
      cases named
    · rintro ⟨empty, somebody⟩
      exact absurd empty.symm somebody
  next somebody =>
    rw [Option.some.injEq]
    exact ⟨fun same => ⟨same, same ▸ somebody⟩, And.left⟩

/-- A new attempt does not touch what was decided about the others. -/
theorem Inv.loginReq [Protobuf] (inv : s.Inv CMD5Base64) (username password : String) (sent : Bool)
    (step : s.step CMD5Base64 (.LoginReq username password sent) = some s') :
    s'.Inv CMD5Base64 := by
  obtain rfl := Option.some.inj step
  have older {k : Nat} (lt : k < s.link.made.length) (a : String × String) :
      (s.link.made ++ [a])[k]? = s.link.made[k]? := List.getElem?_append_left lt
  refine ⟨inv.inOrder.send _ _, ?_, ?_, ?_⟩
  · intro k mem attempt there
    rcases List.mem_append.mp mem with old | new
    · have lt := (inv.inOrder.waiting k old).2
      exact inv.small k old attempt ((older lt _).symm.trans there)
    · split at new
      next goes =>
        obtain rfl := List.mem_singleton.mp new
        have own := there
        rw [Conversation.send, List.getElem?_concat_length] at own
        obtain rfl := Option.some.inj own
        exact of_decide_eq_true (Bool.and_eq_true_iff.mp goes).2
      · cases new
  · intro r mem
    obtain ⟨attempt, ret, there, decided, worth⟩ := inv.judged r mem
    have lt := (List.getElem?_eq_some_iff.mp there).1
    exact ⟨attempt, ret, (older lt _).trans there, decided, worth⟩
  · exact (inv.tabled.erase username).of_arrived rfl

theorem Inv.serve [Protobuf] (inv : s.Inv CMD5Base64) (o : Outcomes) (db : AuthDb) (sent : Bool)
    (step : s.step CMD5Base64 (.serve o db sent) = some s') : s'.Inv CMD5Base64 := by
  obtain ⟨k, head, step⟩ := Option.bind_eq_some_iff.mp step
  obtain ⟨attempt, there, step⟩ := Option.bind_eq_some_iff.mp step
  obtain ⟨link, served, step⟩ := Option.bind_eq_some_iff.mp step
  obtain rfl := Option.some.inj step
  have ordered := inv.inOrder.serve served
  obtain ⟨k', ks, attempt', requests, there', rfl⟩ := Conversation.serve_eq_some.mp served
  obtain rfl : k' = k := by simpa [requests] using head
  obtain rfl := Option.some.inj (there'.symm.trans there)
  have first : k' ∈ s.link.requests := requests ▸ List.mem_cons_self
  obtain ⟨ret, res, decided, answered, worth⟩ :=
    verdict_answer (inv.small k' first attempt' there) o db
  refine ⟨ordered, ?_, ?_, inv.tabled.of_arrived rfl⟩
  · intro l mem attempt at_l
    exact inv.small l (requests ▸ List.mem_cons_of_mem _ mem) attempt at_l
  · intro r mem
    rw [Conversation.answers_append] at mem
    rcases List.mem_append.mp mem with old | new
    · obtain ⟨a, ret', at_r, was, worth'⟩ := inv.judged r old
      refine ⟨a, ret', at_r, ?_, worth'⟩
      -- this request comes after all that are answered
      have earlier := Nat.lt_of_lt_of_le (inv.inOrder.answered r old) (inv.inOrder.waiting k' first).1
      exact (Function.update_of_ne (Nat.ne_of_lt earlier) ..).trans was
    · obtain ⟨res', given, rfl⟩ := Option.map_eq_some_iff.mp (Option.mem_toList.mp new)
      split at given
      · obtain rfl := Option.some.inj (given.symm.trans answered)
        exact ⟨attempt', ret, there, (Function.update_self ..).trans decided, worth⟩
      · cases given

theorem Inv.loginRes [Protobuf] (inv : s.Inv CMD5Base64) (parsed : Bool)
    (step : s.step CMD5Base64 (.LoginRes parsed) = some s') : s'.Inv CMD5Base64 := by
  obtain ⟨⟨r, link⟩, received, step⟩ := Option.bind_eq_some_iff.mp step
  dsimp only at step
  split at step
  · obtain rfl := Option.some.inj step
    have ordered := inv.inOrder.receive received
    have same := Conversation.answers_receive received
    have tabled : link.Tabled user? (s.client.LoginRes (some r.2)).loginMap := by
      unfold CAuthClient.LoginRes
      dsimp only
      split
      next nobody => exact inv.tabled.receive_skip received (if_pos nobody)
      next somebody =>
        exact inv.tabled.receive inv.inOrder received (user?_eq_some.mpr ⟨rfl, somebody⟩)
    obtain ⟨rs, responses, rfl⟩ := Conversation.receive_eq_some.mp received
    exact ⟨ordered, inv.small, fun q mem => inv.judged q (same ▸ mem), tabled⟩
  · obtain rfl := Option.some.inj step
    exact ⟨inv.inOrder.lose, inv.small,
      fun q mem => inv.judged q (s.link.answers_lose.subset mem), inv.tabled.of_arrived rfl⟩

theorem machine_preserves_inv [Protobuf] :
    (machine CMD5Base64).Preserves (fun _ _ => True) (Inv CMD5Base64) := by
  intro s event s' inv _ step
  cases event with
  | LoginReq username password sent => exact inv.loginReq username password sent step
  | serve o db sent => exact inv.serve o db sent step
  | LoginRes parsed => exact inv.loginRes parsed step
  | getLoginInfo username =>
    obtain rfl := Option.some.inj step
    exact inv

/-! ## Uncrossed answers -/

theorem Inv.uncrossed (inv : s.Inv CMD5Base64) {event : Event} (answered : s.Answered event) :
    s.Uncrossed CMD5Base64 event := by
  cases event with
  | getLoginInfo username =>
    intro info looked k password latest
    obtain ⟨res, entry, rfl⟩ := Option.map_eq_some_iff.mp looked
    obtain ⟨own_user, k', mem, last⟩ := inv.tabled username res entry
    obtain ⟨named, somebody⟩ := user?_eq_some.mp own_user
    obtain ⟨own, own_mem, own_named⟩ := answered (by simp [entry]) k password latest
    obtain ⟨attempt, ret, there, decided, worth⟩ :=
      inv.judged (k', res) (List.mem_append_left _ mem)
    rcases worth with nobody | ⟨user, ok⟩
    · exact absurd (named.symm.trans nobody) somebody
    · obtain ⟨username', password'⟩ := attempt
      dsimp only at there decided user ok
      obtain rfl : username = username' := named.symm.trans user
      -- the entry answers the last attempt: no later one is answered, and none is made
      obtain rfl : k' = k := Nat.le_antisymm (latest.2 k' password' there)
        (last _ own_mem (user?_eq_some.mpr ⟨own_named, somebody⟩))
      obtain ⟨-, rfl⟩ := Prod.mk.inj (Option.some.inj (there.symm.trans latest.1))
      rw [decided]
      by_cases accepted : ret = true
      · simp [ok.mpr accepted, accepted]
      · simp [mt ok.mp accepted, accepted]
  | _ => trivial

/-- In a run in which no entry is looked at that stands for an older attempt than the last one of
its user, every result of `getLoginInfo` is the user system's decision about the last attempt. -/
theorem login_answers_uncrossed [Protobuf] (CMD5Base64 : String → String) (events : List Event)
    (answered : (machine CMD5Base64).Along Answered {} events) :
    (machine CMD5Base64).Along (Uncrossed CMD5Base64) {} events :=
  (machine CMD5Base64).along_of_invariant machine_preserves_inv.weaken
    (fun _ _ inv answered => inv.uncrossed answered) .init answered

/-- A call of `getLoginInfo` returns what one of its looks finds, so that is the decision about the
last attempt, unless none of them finds anything. `states i` is the session at the `i`-th look. -/
theorem getLoginInfo_decided {states : Nat → LoginSession} {username : String} {timeoutMs : Int}
    (uncrossed : ∀ i, (states i).Uncrossed CMD5Base64 (.getLoginInfo username)) :
    let result := CAuthClient.getLoginInfo username timeoutMs fun i => (states i).client
    result = (false, none) ∨ ∃ i, ∀ k password, (states i).Latest username k password →
      (states i).verdicts k = some (CAuthClient.loginReq CMD5Base64 username password, result.1) := by
  intro result
  rcases CAuthClient.getLoginInfo_look username timeoutMs fun i => (states i).client with
    ⟨i, info, looked, returned⟩ | ⟨nothing, -⟩
  · refine .inr ⟨i, fun k password latest => ?_⟩
    rw [uncrossed i info looked k password latest, show result = (info.isSome, info) from returned]
  · exact .inl nothing

open Library.Wire.Reader

/-- Two users, one of them `a` with the password `p`. -/
def users : AuthDb := AuthServer.twoLogins.shared

/-- The user system finds the row of `a`, and everything else works. -/
def accepting : Outcomes where
  select := { rows := [(some "a", none)] }
  insert := { uuid := "token" }

/-- One attempt, whose answer arrives before it is looked for. -/
def inTime : List Event :=
  [.LoginReq "a" "p" true, .serve accepting users true, .LoginRes true]

theorem login_answers_uncrossed_inTime :
    (machine id).Along (Uncrossed id) {} (inTime ++ [.getLoginInfo "a"]) := by
  have unasked : (machine id).Along Answered {} inTime :=
    ⟨trivial, fun _ _ => ⟨trivial, fun _ _ => ⟨trivial, fun _ _ => trivial⟩⟩⟩
  refine login_answers_uncrossed id _ ((machine id).along_concat.mpr ⟨unasked, fun s reached => ?_⟩)
  have trace : ((machine id).run {} inTime).map (fun s =>
      (s.link.made, s.link.arrived.map fun r => (r.1, r.2.username))) =
      some ([("a", "p")], [(0, "a")]) := by decide +kernel
  rw [reached, Option.map_some, Option.some.injEq, Prod.mk.injEq] at trace
  obtain ⟨made, arrived⟩ := trace
  intro _ k password latest
  have lt := (List.getElem?_eq_some_iff.mp latest.1).1
  obtain rfl : k = 0 := by simpa [made] using lt
  have mem : (0, "a") ∈ s.link.arrived.map fun r => (r.1, r.2.username) := by
    rw [arrived]
    exact List.mem_singleton_self _
  obtain ⟨⟨k, res⟩, there, same⟩ := List.mem_map.mp mem
  obtain ⟨rfl, named⟩ := Prod.mk.inj same
  exact ⟨res, there, named⟩

/-- The first attempt times out. The answer to it, which is OK, comes after the second has begun,
which the user system refuses. -/
def late : List Event :=
  [.LoginReq "a" "p" true, .serve accepting users true, .getLoginInfo "a",
    .LoginReq "a" "wrong" true, .serve {} users true, .LoginRes true]

/-- `getLoginInfo` returns true for the password that was refused. -/
theorem login_answers_crossed :
    (∃ s info, (machine id).run {} late = some s ∧ s.Latest "a" 1 "wrong" ∧
      s.client.look "a" = some (some info) ∧
      s.verdicts 1 = some (CAuthClient.loginReq id "a" "wrong", false)) ∧
    ¬(machine id).Along (Uncrossed id) {} (late ++ [.getLoginInfo "a"]) := by
  have trace : ((machine id).run {} late).map (fun s =>
      (s.link.made, (s.client.look "a").map (·.isSome), s.verdicts 1)) =
      some ([("a", "p"), ("a", "wrong")], some true,
        some (CAuthClient.loginReq id "a" "wrong", false)) := by decide +kernel
  obtain ⟨s, reached, values⟩ := Option.map_eq_some_iff.mp trace
  obtain ⟨made, looked, verdict⟩ : s.link.made = [("a", "p"), ("a", "wrong")] ∧
      (s.client.look "a").map (·.isSome) = some true ∧
      s.verdicts 1 = some (CAuthClient.loginReq id "a" "wrong", false) := by simpa using values
  obtain ⟨found, look, some_info⟩ := Option.map_eq_some_iff.mp looked
  obtain ⟨info, rfl⟩ := Option.isSome_iff_exists.mp some_info
  have latest : s.Latest "a" 1 "wrong" := by
    refine ⟨by rw [made]; rfl, fun j password there => ?_⟩
    have lt := (List.getElem?_eq_some_iff.mp there).1
    rw [made] at lt
    exact Nat.le_of_lt_succ lt
  refine ⟨⟨s, info, reached, latest, look, verdict⟩, fun along => ?_⟩
  have uncrossed := (machine id).along_last along reached (some info) look 1 "wrong" latest
  rw [verdict] at uncrossed
  cases uncrossed

end LoginSession

end MicroserviceFramework.Auth
