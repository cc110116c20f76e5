import MicroserviceFramework.Auth.Login
import MicroserviceFramework.Library.SqlLexer
import Mathlib.Data.List.TakeWhile

/-!
# The credential select

The text of the first statement of a login, and what MySQL reads in it. `Select.read` covers the
selects of two columns of `cms_auth` by comparisons that are joined with `and` and `or`, in the
spelling that the program uses.
-/

namespace MicroserviceFramework.Auth

open Library Library.Sql

/-- The text that `login` builds for MySQL. -/
def credentialSql (req : CLoginReq) : String :=
  "select cms_username,cms_rolename from cms_auth " ++
    " where cms_username='" ++ req.username ++ "'" ++
    " and cms_password='" ++ req.password ++ "'"

/-! ## Selects from `cms_auth` -/

inductive Column where
  | username | password | rolename
  deriving DecidableEq, Repr

inductive Operand where
  | column (c : Column)
  | literal (s : List Char)
  deriving DecidableEq, Repr

structure Comparison where
  left : Operand
  right : Operand
  deriving DecidableEq, Repr

/-- Comparisons joined from left to right, as they are written. -/
inductive Condition where
  | test (t : Comparison)
  | and (t : Comparison) (rest : Condition)
  | or (t : Comparison) (rest : Condition)
  deriving DecidableEq, Repr

structure Select where
  columns : Column × Column
  condition : Condition
  deriving DecidableEq, Repr

def Column.read (w : List Char) : Option Column :=
  if w = "cms_username".toList then some .username
  else if w = "cms_password".toList then some .password
  else if w = "cms_rolename".toList then some .rolename
  else none

def Operand.read : Token → Option Operand
  | .word w => (Column.read w).map .column
  | .str s => some (.literal s)
  | _ => none

def Comparison.read (left right : Token) : Option Comparison :=
  match Operand.read left, Operand.read right with
  | some l, some r => some ⟨l, r⟩
  | _, _ => none

def Condition.read : List Token → Option Condition
  | [left, .sym '=', right] => (Comparison.read left right).map test
  | left :: .sym '=' :: right :: .word junction :: rest =>
    match Comparison.read left right, Condition.read rest with
    | some t, some condition =>
      if junction = "and".toList then some (and t condition)
      else if junction = "or".toList then some (or t condition)
      else none
    | _, _ => none
  | _ => none

def Select.read : List Token → Option Select
  | .word verb :: .word first :: .sym ',' :: .word second :: .word source :: .word table ::
      .word filter :: rest =>
    if verb = "select".toList ∧ source = "from".toList ∧ table = "cms_auth".toList ∧
        filter = "where".toList then
      match Column.read first, Column.read second, Condition.read rest with
      | some first, some second, some condition => some ⟨(first, second), condition⟩
      | _, _, _ => none
    else none
  | _ => none

/-- What MySQL reads in a text. -/
def readSql (sql : String) : Option Select := (lex (cstr sql).toList).bind Select.read

/-! ## Their rows -/

def AuthRow.column (row : AuthRow) : Column → Option String
  | .username => some row.username
  | .password => some row.password
  | .rolename => row.rolename

def Operand.value (row : AuthRow) : Operand → Option String
  | .column c => row.column c
  | .literal s => some (String.ofList s)

/-- `same` is the collation, and nothing is equal to NULL. -/
def Comparison.holds (same : String → String → Bool) (row : AuthRow) (t : Comparison) : Bool :=
  match t.left.value row, t.right.value row with
  | some left, some right => same left right
  | _, _ => false

/-- `and` binds tighter than `or`; `before` is what the current conjunction has come to. -/
def Condition.holds (value : Comparison → Bool) (before : Bool) : Condition → Bool
  | test t => before && value t
  | and t rest => rest.holds value (before && value t)
  | or t rest => before && value t || rest.holds value true

def Select.rows (same : String → String → Bool) (users : List AuthRow) (q : Select) :
    List (Option String × Option String) :=
  (users.filter fun row => q.condition.holds (·.holds same row) true).map fun row =>
    (row.column q.columns.1, row.column q.columns.2)

/-! ## What the select should be -/

/-- `cms_username = username and cms_password = password`. -/
def credentialSelect (req : CLoginReq) : Select where
  columns := (.username, .rolename)
  condition := .and ⟨.column .username, .literal req.username.toList⟩
    (.test ⟨.column .password, .literal req.password.toList⟩)

structure NotInjected (same : String → String → Bool) (req : CLoginReq) : Prop where
  select : readSql (credentialSql req) = some (credentialSelect req)
  /-- The rows are those of a user with that name and password. -/
  rows : ∀ users q, readSql (credentialSql req) = some q → ∀ row ∈ q.rows same users,
    ∃ user ∈ users, same user.username req.username ∧ same user.password req.password ∧
      row = (some user.username, user.rolename)

/-- What can stand in the text as it is: no NUL, no single quote, and after every backslash one of
`%` and `_`. -/
def Plain (s : String) : Prop := Char.ofNat 0 ∉ s.toList ∧ Verbatim quote s.toList

instance (s : String) : Decidable (Plain s) := inferInstanceAs (Decidable (_ ∧ _))

/-! ## Reading the text -/

/-- The tokens before the username. -/
def beforeUsername : List Token :=
  [.word "select".toList, .word "cms_username".toList, .sym ',', .word "cms_rolename".toList,
    .word "from".toList, .word "cms_auth".toList] ++
  [.word "where".toList, .word "cms_username".toList, .sym '=']

/-- The tokens between the username and the password. -/
def beforePassword : List Token := [.word "and".toList, .word "cms_password".toList, .sym '=']

theorem transduce_select :
    transduce step .code "select cms_username,cms_rolename from cms_auth ".toList =
      ([.word "select".toList, .word "cms_username".toList, .sym ',', .word "cms_rolename".toList,
        .word "from".toList, .word "cms_auth".toList], .code) := by
  decide +kernel

theorem transduce_where :
    transduce step .code " where cms_username='".toList =
      ([.word "where".toList, .word "cms_username".toList, .sym '='], .str quote []) := by
  decide +kernel

theorem transduce_and :
    transduce step .code " and cms_password='".toList = (beforePassword, .str quote []) := by
  decide +kernel

theorem no_nul_and : ∀ c ∈ " and cms_password='".toList, decide (c ≠ Char.ofNat 0) = true :=
  List.all_eq_true.mp (by decide)

/-- The characters of the text from the username on, before the C string is cut. -/
def fromUsername (req : CLoginReq) : List Char :=
  req.username.toList ++ quote ::
    (" and cms_password='".toList ++ (req.password.toList ++ [quote]))

theorem toList_quote : "'".toList = [quote] := rfl

theorem toList_credentialSql (req : CLoginReq) :
    (credentialSql req).toList =
      "select cms_username,cms_rolename from cms_auth ".toList ++
        (" where cms_username='".toList ++ fromUsername req) := by
  unfold credentialSql fromUsername
  simp only [String.toList_append, List.append_assoc, toList_quote, List.cons_append,
    List.nil_append]

theorem lex_credentialSql (req : CLoginReq) :
    lex (cstr (credentialSql req)).toList =
      (lexFrom (.str quote []) ((fromUsername req).takeWhile (· ≠ Char.ofNat 0))).map
        (beforeUsername ++ ·) := by
  rw [lex, cstr, String.toList_ofList, toList_credentialSql,
    List.takeWhile_append_of_pos (List.all_eq_true.mp (by decide)),
    List.takeWhile_append_of_pos (List.all_eq_true.mp (by decide)),
    lexFrom_append transduce_select, lexFrom_append transduce_where, Option.map_map]
  rfl

theorem Operand.read_literal {token : Token} {s : List Char}
    (read : Operand.read token = some (.literal s)) : token = .str s := by
  cases token with
  | str content => simpa [Operand.read] using read
  | _ => simp [Operand.read] at read

theorem Operand.read_password {token : Token}
    (read : Operand.read token = some (.column .password)) :
    token = .word "cms_password".toList := by
  cases token with
  | word w =>
    simp only [Operand.read, Option.map_eq_some_iff, Operand.column.injEq] at read
    obtain ⟨c, read, rfl⟩ := read
    unfold Column.read at read
    split at read
    · cases read
    split at read
    next same => rw [same]
    · split at read <;> cases read
  | _ => simp [Operand.read] at read

theorem Comparison.read_inv {left right : Token} {t : Comparison}
    (read : Comparison.read left right = some t) :
    Operand.read left = some t.left ∧ Operand.read right = some t.right := by
  unfold Comparison.read at read
  split at read
  next l r leftRead rightRead =>
    obtain rfl := Option.some.inj read
    exact ⟨leftRead, rightRead⟩
  next => simp at read

theorem Condition.read_test {tokens : List Token} {t : Comparison}
    (read : Condition.read tokens = some (.test t)) :
    ∃ left right, tokens = [left, .sym '=', right] ∧ Comparison.read left right = some t := by
  unfold Condition.read at read
  split at read
  next left right =>
    obtain ⟨_, compared, same⟩ := Option.map_eq_some_iff.mp read
    exact ⟨left, right, rfl, Condition.test.inj same ▸ compared⟩
  next =>
    split at read
    · split_ifs at read <;> simp at read
    · simp at read
  next => simp at read

theorem Condition.read_and {left right : Token} {tokens : List Token} {t : Comparison}
    {condition : Condition}
    (read : Condition.read (left :: .sym '=' :: right :: tokens) = some (.and t condition)) :
    Comparison.read left right = some t ∧
      ∃ rest, tokens = .word "and".toList :: rest ∧ Condition.read rest = some condition := by
  cases tokens with
  | nil => simp [Condition.read] at read
  | cons junction rest =>
    cases junction with
    | word junction =>
      simp only [Condition.read] at read
      split at read
      next t' condition' compared restRead =>
        split_ifs at read with isAnd
        · obtain ⟨rfl, rfl⟩ := Condition.and.inj (Option.some.inj read)
          exact ⟨compared, rest, by rw [isAnd], restRead⟩
        · simp at read
      next => simp at read
    | _ => simp [Condition.read] at read

theorem Select.read_credentialSelect {content : List Char} {tokens : List Token} {req : CLoginReq}
    (read : Select.read (beforeUsername ++ .str content :: tokens) = some (credentialSelect req)) :
    content = req.username.toList ∧ tokens = beforePassword ++ [.str req.password.toList] := by
  have condition : Condition.read
      (.word "cms_username".toList :: .sym '=' :: .str content :: tokens) =
        some (credentialSelect req).condition := by
    rw [beforeUsername, List.append_assoc, List.cons_append, List.cons_append, List.cons_append,
      List.cons_append, List.cons_append, List.cons_append, List.nil_append, List.cons_append,
      Select.read, if_pos (by decide)] at read
    split at read
    next condition _ _ conditionRead =>
      rw [← congrArg Select.condition (Option.some.inj read)]
      exact conditionRead
    next => simp at read
  obtain ⟨first, rest, rfl, restRead⟩ := Condition.read_and condition
  obtain ⟨left, right, rfl, second⟩ := Condition.read_test restRead
  have username := Operand.read_literal (Comparison.read_inv first).2
  have password := Comparison.read_inv second
  rw [Operand.read_password password.1, Operand.read_literal password.2]
  exact ⟨Token.str.inj username, rfl⟩

/-- Up to the first quote, two texts with the same beginning are the same. -/
theorem takeWhile_quote {P : Char → Bool} {q : Char} {s rest raw later : List Char}
    (same : (s ++ q :: rest).takeWhile P = raw ++ q :: later) (free : q ∉ s) (raw_free : q ∉ raw) :
    raw = s ∧ later = rest.takeWhile P ∧ ∀ c ∈ s, P c := by
  induction s generalizing raw with
  | nil =>
    cases raw with
    | nil =>
      rw [List.nil_append, List.takeWhile_cons] at same
      split at same
      · exact ⟨rfl, (List.cons.inj same).2.symm, by simp⟩
      · cases same
    | cons d raw =>
      rw [List.nil_append, List.takeWhile_cons] at same
      split at same
      · obtain rfl := (List.cons.inj same).1
        simp at raw_free
      · cases same
  | cons c s ih =>
    rw [List.cons_append, List.takeWhile_cons] at same
    split at same
    next holds =>
      cases raw with
      | nil =>
        obtain rfl := (List.cons.inj same).1
        simp at free
      | cons d raw =>
        obtain ⟨rfl, tails⟩ := List.cons.inj same
        obtain ⟨rfl, rfl, all⟩ := ih tails (List.not_mem_of_not_mem_cons free)
          (List.not_mem_of_not_mem_cons raw_free)
        exact ⟨rfl, rfl, List.forall_mem_cons.mpr ⟨holds, all⟩⟩
    next => simp at same

theorem Select.read_of_credentials (req : CLoginReq) :
    Select.read (beforeUsername ++ (.str req.username.toList ::
      (beforePassword ++ [.str req.password.toList]))) = some (credentialSelect req) := rfl

theorem quote_proper : quote ≠ backslash := by decide
theorem quote_not_wildcard : ¬(quote = '%' ∨ quote = '_') := by decide

/-- The literal of the username ends where it should, since the filter keeps quotes out. -/
theorem username_literal {req : CLoginReq} {tokens : List Token}
    (passed : filtered req.username = false)
    (lexed : lexFrom (.str quote []) ((fromUsername req).takeWhile (· ≠ Char.ofNat 0)) =
      some (.str req.username.toList :: tokens)) :
    Plain req.username ∧ lexFrom .code ((" and cms_password='".toList ++
      (req.password.toList ++ [quote])).takeWhile (· ≠ Char.ofNat 0)) = some tokens := by
  have free : quote ∉ req.username.toList := fun mem => by simp_all [filtered, quote]
  obtain ⟨raw, content, later, split, literal, _, more, after, same⟩ :=
    lexFrom_str_inv quote_proper [] lexed
  obtain ⟨username, rfl⟩ := List.cons.inj same
  obtain rfl : req.username.toList = content := Token.str.inj username
  have raw_free : quote ∉ raw := fun mem => free (literal.mem rfl quote_proper mem)
  obtain ⟨rfl, rfl, proper⟩ := takeWhile_quote split free raw_free
  refine ⟨⟨fun mem => ?_, (literal.verbatim quote_proper quote_not_wildcard le_rfl).2⟩, after⟩
  simpa using proper _ mem

/-- The literal of the password takes the rest of the text. -/
theorem password_literal {s : List Char}
    (lexed : lexFrom (.str quote []) ((s ++ [quote]).takeWhile (· ≠ Char.ofNat 0)) =
      some [.str s]) : Char.ofNat 0 ∉ s ∧ Verbatim quote s := by
  obtain ⟨raw, content, later, split, literal, _, more, after, same⟩ :=
    lexFrom_str_inv quote_proper [] lexed
  obtain rfl : s = content := Token.str.inj (List.cons.inj same).1
  have cut := List.takeWhile_prefix (l := s ++ [quote]) (· ≠ Char.ofNat 0)
  have bound := cut.length_le
  rw [split] at cut bound
  have short : raw.length ≤ s.length := by
    simp only [List.length_append, List.length_cons, List.length_nil] at bound
    omega
  obtain ⟨rfl, verbatim⟩ := literal.verbatim quote_proper quote_not_wildcard short
  refine ⟨fun mem => ?_, verbatim⟩
  have inside : Char.ofNat 0 ∈ (s ++ [quote]).takeWhile (· ≠ Char.ofNat 0) := by
    rw [split]
    exact List.mem_append_left _ mem
  simpa using List.mem_takeWhile_imp inside

theorem plain_of_readSql {req : CLoginReq} (passed : filtered req.username = false)
    (read : readSql (credentialSql req) = some (credentialSelect req)) :
    Plain req.username ∧ Plain req.password := by
  obtain ⟨_, lexed, selects⟩ := Option.bind_eq_some_iff.mp read
  rw [lex_credentialSql] at lexed
  obtain ⟨tokens, lexed', rfl⟩ := Option.map_eq_some_iff.mp lexed
  obtain ⟨raw, content, later, -, -, -, more, -, rfl⟩ := lexFrom_str_inv quote_proper [] lexed'
  obtain ⟨rfl, rfl⟩ := Select.read_credentialSelect selects
  obtain ⟨username, after⟩ := username_literal passed lexed'
  rw [List.takeWhile_append_of_pos no_nul_and, lexFrom_append transduce_and] at after
  obtain ⟨tokens, last, same⟩ := Option.map_eq_some_iff.mp after
  rw [List.append_cancel_left same] at last
  exact ⟨username, password_literal last⟩

theorem readSql_of_plain {req : CLoginReq} (username : Plain req.username)
    (password : Plain req.password) :
    readSql (credentialSql req) = some (credentialSelect req) := by
  have whole : (fromUsername req).takeWhile (· ≠ Char.ofNat 0) = fromUsername req := by
    rw [List.takeWhile_eq_self_iff]
    intro c mem
    simp only [fromUsername, List.mem_append, List.mem_cons, List.not_mem_nil, or_false] at mem
    rcases mem with mem | rfl | mem | mem | rfl
    · exact decide_eq_true (ne_of_mem_of_not_mem mem username.1)
    · decide
    · exact no_nul_and c mem
    · exact decide_eq_true (ne_of_mem_of_not_mem mem password.1)
    · decide
  have last : lexFrom (.str quote []) (req.password.toList ++ [quote]) =
      some [.str req.password.toList] :=
    (password.2.literal quote_not_wildcard).lexFrom quote_proper (by simp) []
  have follows : (" and cms_password='".toList ++ (req.password.toList ++ [quote])).head? ≠
      some quote := by
    rw [List.head?_append_of_ne_nil _ (by decide)]
    decide
  rw [readSql, lex_credentialSql, whole, fromUsername,
    (username.2.literal quote_not_wildcard).lexFrom quote_proper follows,
    lexFrom_append transduce_and, last]
  exact Select.read_of_credentials req

/-- The rows of the select that was meant are those of a user with that name and password. -/
theorem mem_rows_credentialSelect {same : String → String → Bool} {users : List AuthRow}
    {req : CLoginReq} {answer : Option String × Option String} :
    answer ∈ (credentialSelect req).rows same users ↔ ∃ user ∈ users,
      same user.username req.username ∧ same user.password req.password ∧
        answer = (some user.username, user.rolename) := by
  simp only [Select.rows, List.mem_map, List.mem_filter, credentialSelect, Condition.holds,
    Comparison.holds, Operand.value, AuthRow.column, String.ofList_toList, Bool.true_and,
    Bool.and_eq_true]
  constructor
  · rintro ⟨user, ⟨mem, username, password⟩, rfl⟩
    exact ⟨user, mem, username, password, rfl⟩
  · rintro ⟨user, mem, username, password, rfl⟩
    exact ⟨user, ⟨mem, username, password⟩, rfl⟩

/-- A username that passes the filter is looked up with the password exactly when both can stand
in the text as they are. -/
theorem notInjected_iff (same : String → String → Bool) {req : CLoginReq}
    (passed : filtered req.username = false) :
    NotInjected same req ↔ Plain req.username ∧ Plain req.password := by
  constructor
  · exact fun safe => plain_of_readSql passed safe.select
  · rintro ⟨username, password⟩
    have read := readSql_of_plain username password
    refine ⟨read, fun users q reads answer mem => ?_⟩
    obtain rfl := Option.some.inj (read.symm.trans reads)
    exact mem_rows_credentialSelect.mp mem

/-- A user's own credentials, with a backslash that MySQL keeps. -/
theorem notInjected_plain :
    NotInjected (· == ·) { username := "admin", password := "100\\%" } :=
  (notInjected_iff (· == ·) (by decide)).mpr (by decide)

/-- With this password everybody is anybody. -/
def injection : CLoginReq := { username := "nobody", password := "' or '1'='1" }

/-- `cms_username = 'nobody' and cms_password = '' or '1' = '1'`. -/
def injectedSelect : Select where
  columns := (.username, .rolename)
  condition := .and ⟨.column .username, .literal "nobody".toList⟩
    (.or ⟨.column .password, .literal []⟩ (.test ⟨.literal ['1'], .literal ['1']⟩))

theorem password_injected :
    filtered injection.username = false ∧
    readSql (credentialSql injection) = some injectedSelect ∧
    injectedSelect.rows (· == ·) [⟨"admin", "secret", some "root"⟩] =
      [(some "admin", some "root")] ∧
    ¬NotInjected (· == ·) injection := by
  have read : readSql (credentialSql injection) = some injectedSelect := by
    rw [readSql, lex_credentialSql]
    decide +kernel
  refine ⟨by decide, read, by decide, fun safe => ?_⟩
  have same := Option.some.inj (read.symm.trans safe.select)
  exact absurd same (by decide)

end MicroserviceFramework.Auth
