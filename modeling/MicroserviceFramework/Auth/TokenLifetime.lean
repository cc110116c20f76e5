import MicroserviceFramework.Auth.Tokens

/-!
# How long a token lives

Every login that succeeds adds a row and deletes those that are expired. The expiry time is a sum
of 32 bits. Where it wraps around it is in the past, and the login deletes the row that it has just
added.
-/

namespace MicroserviceFramework.Auth

open Library

/-- A row that a login added, with its time and timeout. -/
structure Issued where
  row : TokenRow
  time : Int32
  timeoutSec : Int32

/-- When the token expires, over the integers. -/
def Issued.expiry (i : Issued) : Int := i.time.toInt + i.timeoutSec.toInt

/-- One call of `login`. Its statements succeed; `rows` is what the credential select finds. -/
structure LoginCall where
  now : Int32
  timeoutSec : Int32
  req : CLoginReq := {}
  rows : List (Option String × Option String) := []
  uuid : String := ""

namespace LoginCall

def outcomes (call : LoginCall) : Outcomes where
  select := { rows := call.rows }
  insert := { uuid := call.uuid, now := call.now }

/-- It is neither refused by the filter nor for its credentials. -/
def Succeeds (call : LoginCall) : Prop := filtered call.req.username = false ∧ call.rows ≠ []

instance (call : LoginCall) : Decidable call.Succeeds := inferInstanceAs (Decidable (_ ∧ _))

end LoginCall

/-- The database between two calls, and what was issued. -/
structure TokenLife where
  db : AuthDb
  issued : List Issued := []
  clock : Int32
  /-- The time of the last login that succeeded. -/
  cleaned : Int32 := clock

namespace TokenLife

/-- The clock does not go back, and timeouts are positive. -/
def step (s : TokenLife) (call : LoginCall) : Option TokenLife :=
  if call.now < s.clock ∨ call.timeoutSec ≤ 0 then none
  else
    match login call.timeoutSec call.outcomes s.db call.req {} with
    | (db, .done true _ (some row)) => some {
        db := db
        issued := s.issued ++ [⟨row, call.now, call.timeoutSec⟩]
        clock := call.now
        cleaned := call.now }
    | (db, _) => some { s with db := db, clock := call.now }

def machine : Machine TokenLife LoginCall := ⟨step⟩

/-- The row of a token is in the table up to its expiry and not afterwards, and has that time. -/
def Lifetimes (s : TokenLife) : Prop :=
  ∀ i ∈ s.issued, (i.row ∈ s.db.tokens.rows ↔ s.cleaned.toInt ≤ i.expiry) ∧
    i.row.expired_time.toInt = i.expiry

/-- A login that succeeds leaves the tokens that are not expired at its time, its own among them,
and no others. -/
def KeepsLifetimes (s : TokenLife) (call : LoginCall) : Prop :=
  ∀ t, s.step call = some t → call.Succeeds → t.cleaned = call.now ∧ t.Lifetimes

/-- The expiry time is within 32 bits. -/
def NoWrap (s : TokenLife) (call : LoginCall) : Prop :=
  s.clock ≤ call.now → call.Succeeds → call.now.toInt + call.timeoutSec.toInt < 2 ^ 31

instance (s : TokenLife) (call : LoginCall) : Decidable (s.NoWrap call) :=
  inferInstanceAs (Decidable (_ → _ → _))

end TokenLife

/-! ## One login -/

/-- The database and the row that a login has added, when it gets so far. -/
def AuthDb.logged (db : AuthDb) (call : LoginCall) (rolename : String) : AuthDb × TokenRow :=
  let (row, tokens) := db.tokens.insert (cstr call.req.username) rolename call.uuid
    (call.now + call.timeoutSec)
  ({ db with tokens := tokens.deleteExpired call.now, lastInsertId := row.id }, row)

/-- A login that succeeds adds one row, and then deletes all that are expired. -/
theorem login_succeeds {call : LoginCall} (succeeds : call.Succeeds) (db : AuthDb) :
    ∃ rolename res, login call.timeoutSec call.outcomes db call.req {} =
      ((db.logged call rolename).1, .done true res (some (db.logged call rolename).2)) := by
  obtain ⟨passed, found⟩ := succeeds
  obtain ⟨answer, rest, rows⟩ := List.exists_cons_of_ne_nil found
  rcases created : db.tokens.insert (cstr call.req.username)
    (cstr ((answer.2.map cstr).getD "")) call.uuid (call.now + call.timeoutSec) with ⟨row, tokens⟩
  have own : tokens.select row.id = some row := TokenTable.select_insert created
  refine ⟨cstr ((answer.2.map cstr).getD ""), {
    token := row.token
    expired_time := call.now + call.timeoutSec
    rolename := (answer.2.map cstr).getD ""
    username := call.req.username }, ?_⟩
  rw [AuthDb.logged, created]
  simp [login, Outcomes.list, LoginState.run, LoginState.step, LoginCall.outcomes, passed, rows,
    created, own]

/-- One that is refused leaves the database alone. -/
theorem login_refused {call : LoginCall} (refused : ¬call.Succeeds) (db : AuthDb) :
    ∃ res, login call.timeoutSec call.outcomes db call.req {} = (db, .done false res none) := by
  by_cases passed : filtered call.req.username = false
  · have nobody : call.rows = [] := by
      by_contra found
      exact refused ⟨passed, found⟩
    refine ⟨{ res := .ERROR, token := "username or password error!" }, ?_⟩
    simp [login, Outcomes.list, LoginState.run, LoginState.step, LoginCall.outcomes, passed, nobody]
  · rw [Bool.not_eq_false] at passed
    refine ⟨{}, ?_⟩
    simp [login, Outcomes.list, LoginState.run, LoginState.step, passed]

namespace AuthDb

variable (db : AuthDb) (call : LoginCall) (rolename : String)

theorem logged_id : (db.logged call rolename).2.id = db.tokens.nextId := rfl

theorem logged_nextId : (db.logged call rolename).1.tokens.nextId = db.tokens.nextId + 1 := rfl

/-- What is left after a login. -/
theorem mem_logged (row : TokenRow) : row ∈ (db.logged call rolename).1.tokens.rows ↔
    (row ∈ db.tokens.rows ∨ row = (db.logged call rolename).2) ∧ ¬row.expired_time < call.now := by
  simp [logged, TokenTable.insert, TokenTable.mem_deleteExpired]

end AuthDb

/-- A sum with a positive number wraps around exactly if it is not within 32 bits. -/
theorem toInt_add_eq_iff {a b : Int32} (pos : 0 < b) :
    (a + b).toInt = a.toInt + b.toInt ↔ a.toInt + b.toInt < 2 ^ 31 := by
  have low := a.le_toInt
  have positive : 0 < b.toInt := Int32.lt_iff_toInt_lt.mp pos
  constructor
  · intro same
    have high := (a + b).toInt_lt
    omega
  · intro fits
    rw [Int32.toInt_add, Int.bmod_eq_of_le] <;> omega

namespace TokenLife

variable {s t : TokenLife} {call : LoginCall}

/-- What holds between two calls. -/
structure Inv (s : TokenLife) : Prop where
  lifetimes : s.Lifetimes
  below : ∀ i ∈ s.issued, i.row.id < s.db.tokens.nextId
  ordered : s.cleaned ≤ s.clock

theorem Inv.init (db : AuthDb) (clock : Int32) : ({ db := db, clock := clock } : TokenLife).Inv where
  lifetimes i mem := by cases mem
  below i mem := by cases mem
  ordered := Int32.le_refl clock

/-- A call that succeeds, and one that does not. -/
theorem step_cases (step : s.step call = some t) : s.clock ≤ call.now ∧ 0 < call.timeoutSec ∧
    ((call.Succeeds ∧ ∃ rolename, t = {
        db := (s.db.logged call rolename).1
        issued := s.issued ++
          [⟨(s.db.logged call rolename).2, call.now, call.timeoutSec⟩]
        clock := call.now
        cleaned := call.now }) ∨
      (¬call.Succeeds ∧ t = { s with clock := call.now })) := by
  unfold TokenLife.step at step
  split at step
  next => cases step
  next allowed =>
    refine ⟨by grind, by grind, ?_⟩
    by_cases succeeds : call.Succeeds
    · obtain ⟨rolename, res, returned⟩ := login_succeeds succeeds s.db
      rw [returned] at step
      exact .inl ⟨succeeds, rolename, (Option.some.inj step).symm⟩
    · obtain ⟨res, returned⟩ := login_refused succeeds s.db
      rw [returned] at step
      exact .inr ⟨succeeds, (Option.some.inj step).symm⟩

/-- After a login that succeeds the lifetimes are kept exactly if its expiry time does not wrap
around. -/
theorem Inv.lifetimes_logged (inv : s.Inv) (later : s.clock ≤ call.now)
    (positive : 0 < call.timeoutSec) (rolename : String) :
    Lifetimes {
        db := (s.db.logged call rolename).1
        issued := s.issued ++ [⟨(s.db.logged call rolename).2, call.now, call.timeoutSec⟩]
        clock := call.now
        cleaned := call.now } ↔ call.now.toInt + call.timeoutSec.toInt < 2 ^ 31 := by
  have cleaned := Int32.le_iff_toInt_le.mp inv.ordered
  have clock := Int32.le_iff_toInt_le.mp later
  constructor
  · intro lifetimes
    have own := (lifetimes _ (List.mem_append_right _ (List.mem_singleton_self _))).2
    exact (toInt_add_eq_iff positive).mp own
  · intro fits i mem
    dsimp only at mem ⊢
    rw [AuthDb.mem_logged, Int32.lt_iff_toInt_lt]
    rcases List.mem_append.mp mem with old | new
    · obtain ⟨present, expiry⟩ := inv.lifetimes i old
      have other : i.row ≠ (s.db.logged call rolename).2 := by
        intro same
        have id := inv.below i old
        rw [same, AuthDb.logged_id] at id
        exact Nat.lt_irrefl _ id
      refine ⟨?_, expiry⟩
      rw [or_iff_left other, present, expiry]
      omega
    · obtain rfl := List.mem_singleton.mp new
      have own : (s.db.logged call rolename).2.expired_time.toInt =
          call.now.toInt + call.timeoutSec.toInt := (toInt_add_eq_iff positive).mpr fits
      have pos : 0 < call.timeoutSec.toInt := Int32.lt_iff_toInt_lt.mp positive
      refine ⟨?_, own⟩
      simp only [or_true, true_and, own, Issued.expiry]
      omega

theorem keepsLifetimes_iff (inv : s.Inv) (call : LoginCall) :
    s.KeepsLifetimes call ↔ s.NoWrap call := by
  constructor
  · intro keeps later succeeds
    by_cases positive : 0 < call.timeoutSec
    · obtain ⟨rolename, res, returned⟩ := login_succeeds succeeds s.db
      have step : s.step call = some {
          db := (s.db.logged call rolename).1
          issued := s.issued ++ [⟨(s.db.logged call rolename).2, call.now, call.timeoutSec⟩]
          clock := call.now
          cleaned := call.now } := by
        rw [TokenLife.step, if_neg (by grind), returned]
      exact (inv.lifetimes_logged later positive rolename).mp (keeps _ step succeeds).2
    · have low := Int32.le_iff_toInt_le.mp (Int32.not_lt.mp positive)
      have high := call.now.toInt_lt
      have zero : (0 : Int32).toInt = 0 := rfl
      omega
  · intro fits t step succeeds
    obtain ⟨later, positive, ⟨-, rolename, rfl⟩ | ⟨refused, -⟩⟩ := step_cases step
    · exact ⟨rfl, (inv.lifetimes_logged later positive rolename).mpr (fits later succeeds)⟩
    · exact absurd succeeds refused

theorem machine_preserves_inv : machine.Preserves KeepsLifetimes Inv := by
  intro s call t inv keeps step
  obtain ⟨later, positive, ⟨succeeds, rolename, rfl⟩ | ⟨-, rfl⟩⟩ := step_cases step
  · refine ⟨(keeps _ step succeeds).2, ?_, Int32.le_refl _⟩
    intro i mem
    dsimp only at mem ⊢
    rw [AuthDb.logged_nextId]
    rcases List.mem_append.mp mem with old | new
    · exact Nat.lt_succ_of_lt (inv.below i old)
    · obtain rfl := List.mem_singleton.mp new
      exact Nat.lt_succ_self _
  · exact ⟨inv.lifetimes, inv.below, Int32.le_trans inv.ordered later⟩

/-- A user logs in 647 seconds before the clock ends. -/
def lateLogin : LoginCall where
  now := 2147483000
  timeoutSec := 1800
  req := { username := "a", password := "p" }
  rows := [(some "a", some "user")]
  uuid := "a-uuid"

end TokenLife

end MicroserviceFramework.Auth
