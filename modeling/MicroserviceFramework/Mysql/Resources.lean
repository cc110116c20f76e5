import MicroserviceFramework.Mysql.Connection

/-!
# What a `CMysql` holds open

After any calls with any answers the open handles are the connection and the result that the object
refers to, and no call was made with another one. The exception is the error message for a
statement that could not be allocated.

The rows of a result can be read until the result is freed, which `getResult`, `storeResult` and
`useResult` do before they ask for the next one.
-/

namespace MicroserviceFramework.Mysql

open Library
open Auth (cstr)

namespace CMysql

variable (answers : Nat → Answer) {s s' t : CMysql}

/-- The handles that the object refers to, each with the one it belongs to. -/
def owned (s : CMysql) : List (Nat × Option Nat) :=
  (s.result_.map fun r => (r, s.mysql_)).toList ++ (s.mysql_.map fun c => (c, none)).toList

structure Owns (s : CMysql) : Prop where
  live : s.api.live = s.owned
  connected : s.mysql_ = none → s.result_ = none
  older : ∀ c r, s.mysql_ = some c → s.result_ = some r → c < r
  below : ∀ e ∈ s.api.live, e.1 < s.api.next
  misused : s.api.misused = s.unallocated

/-- Neither the handles of the object nor those of the library have changed. -/
structure Quiet (s s' : CMysql) : Prop where
  mysql_ : s'.mysql_ = s.mysql_
  result_ : s'.result_ = s.result_
  api : s'.api = s.api
  unallocated : s'.unallocated = s.unallocated

/-- The result is still the same one. -/
structure Keeps (s s' : CMysql) : Prop where
  owns : s'.Owns
  later : s.api.Later s'.api
  result_ : s'.result_ = s.result_

/-- The result, if there is one, is a new one. -/
structure Frees (s s' : CMysql) : Prop where
  owns : s'.Owns
  later : s.api.Later s'.api
  result_ : ∀ r, s'.result_ = some r → s.api.next ≤ r

theorem Quiet.refl (s : CMysql) : Quiet s s := ⟨rfl, rfl, rfl, rfl⟩

theorem Quiet.trans (first : Quiet s s') (second : Quiet s' t) : Quiet s t :=
  ⟨second.mysql_.trans first.mysql_, second.result_.trans first.result_, second.api.trans first.api,
    second.unallocated.trans first.unallocated⟩

theorem Quiet.owns (quiet : Quiet s s') (owns : s.Owns) : s'.Owns := by
  obtain ⟨mysql_, result_, api, unallocated⟩ := quiet
  obtain ⟨live, connected, older, below, misused⟩ := owns
  constructor <;> grind [owned]

theorem Quiet.keeps (quiet : Quiet s s') (owns : s.Owns) : Keeps s s' :=
  ⟨quiet.owns owns, quiet.api ▸ .refl _, quiet.result_⟩

theorem Keeps.trans (first : Keeps s s') (second : Keeps s' t) : Keeps s t :=
  ⟨second.owns, first.later.trans second.later, second.result_.trans first.result_⟩

theorem Owns.start : ({} : CMysql).Owns := by
  constructor <;> simp [owned]

theorem Owns.connection_lt (owns : s.Owns) {c : Nat} (there : s.mysql_ = some c) :
    c < s.api.next :=
  owns.below (c, none) (by simp [owns.live, owned, there])

/-- Everything open belongs to the connection, or is the connection. -/
theorem Owns.owner (owns : s.Owns) {e : Nat × Option Nat} (mem : e ∈ s.api.live) :
    e.2 = none ∨ e.2 = s.mysql_ := by
  rw [owns.live] at mem
  simp only [owned, List.mem_append, Option.mem_toList, Option.map_eq_some_iff] at mem
  rcases mem with ⟨r, -, rfl⟩ | ⟨c, -, rfl⟩
  · exact .inr rfl
  · exact .inl rfl

/-! ## One call of the library -/

theorem Owns.use_mysql (owns : s.Owns) (connected : s.mysql_ ≠ none) :
    s.api.use s.mysql_ = s.api := by
  obtain ⟨c, same⟩ := Option.ne_none_iff_exists'.mp connected
  have live : s.api.isLive c := by simp [Handles.isLive_iff, owns.live, owned, same]
  rw [same, Handles.use_live live]

theorem Owns.use_result (owns : s.Owns) (there : s.result_ ≠ none) :
    s.api.use s.result_ = s.api := by
  obtain ⟨r, same⟩ := Option.ne_none_iff_exists'.mp there
  have live : s.api.isLive r := by simp [Handles.isLive_iff, owns.live, owned, same]
  rw [same, Handles.use_live live]

theorem Owns.call_mysql (owns : s.Owns) (connected : s.mysql_ ≠ none) :
    Quiet s (s.call answers s.mysql_).2 :=
  ⟨rfl, rfl, owns.use_mysql connected, rfl⟩

theorem Owns.touch_mysql (owns : s.Owns) (connected : s.mysql_ ≠ none) :
    Quiet s (s.touch s.mysql_) :=
  ⟨rfl, rfl, owns.use_mysql connected, rfl⟩

theorem Owns.call_result (owns : s.Owns) (there : s.result_ ≠ none) :
    Quiet s (s.call answers s.result_).2 :=
  ⟨rfl, rfl, owns.use_result there, rfl⟩

theorem Owns.touch_result (owns : s.Owns) (there : s.result_ ≠ none) :
    Quiet s (s.touch s.result_) :=
  ⟨rfl, rfl, owns.use_result there, rfl⟩

/-! ## Calls that leave the handles alone -/

/-- An answer, and an error message if it is bad. -/
theorem Owns.asks (owns : s.Owns) (connected : s.mysql_ ≠ none) :
    Quiet s ((s.call answers s.mysql_).2.touch s.mysql_) := by
  have quiet := owns.call_mysql answers connected
  exact quiet.trans ((quiet.owns owns).touch_mysql connected)

theorem Owns.query (owns : s.Owns) (sql : Option String) (sqlLen : Nat) :
    Quiet s (s.query answers sql sqlLen).2 := by
  unfold CMysql.query
  split
  next => exact .refl s
  next => exact .refl s
  next c sql connected =>
    have connected : s.mysql_ ≠ none := by simp [connected]
    generalize (if sqlLen = 0 then (cstr sql).utf8ByteSize else sqlLen) = length
    split
    · exact .refl s
    dsimp only
    split
    · exact owns.call_mysql answers connected
    · exact owns.asks answers connected

theorem Owns.option (owns : s.Owns) : Quiet s (s.option answers).2 := by
  unfold CMysql.option
  split
  · exact .refl s
  next connected =>
    have connected : s.mysql_ ≠ none := by simpa using connected
    dsimp only
    split
    · exact owns.call_mysql answers connected
    · exact owns.asks answers connected

theorem Owns.getInsertId (owns : s.Owns) : Quiet s (s.getInsertId answers).2 := by
  unfold CMysql.getInsertId
  split
  · exact .refl s
  next connected => exact owns.call_mysql answers (by simpa using connected)

theorem Owns.fetchRow (owns : s.Owns) : Quiet s (s.fetchRow answers).2 := by
  unfold CMysql.fetchRow
  split
  · exact .refl s
  next r there =>
    have there : s.result_ ≠ none := by simp [there]
    have quiet := owns.call_result answers there
    dsimp only
    split
    · exact quiet
    next rows _ =>
      let fetched := { (s.call answers s.result_).2 with rows := rows }
      have popped : Quiet s fetched := ⟨rfl, rfl, quiet.api, rfl⟩
      exact popped.trans ((popped.owns owns).touch_result there)

theorem Owns.fetchRows (owns : s.Owns) (n : Nat) : Quiet s (s.fetchRows answers n).2 := by
  fun_induction CMysql.fetchRows answers n s with
  | case1 => exact .refl _
  | case2 n s s' fetched =>
    have quiet := owns.fetchRow answers
    rwa [fetched] at quiet
  | case3 n s row s' _ fetched ih =>
    have quiet := owns.fetchRow answers
    rw [fetched] at quiet
    exact quiet.trans (ih (quiet.owns owns))

/-- A query, and then the number of rows. -/
theorem Owns.query_call (owns : s.Owns) (connected : s.mysql_ ≠ none) {sql : Option String}
    {ok : Bool} (queried : s.query answers sql 0 = (ok, s')) :
    Quiet s s' ∧ Quiet s (s'.call answers s'.mysql_).2 := by
  have quiet := owns.query answers sql 0
  rw [queried] at quiet
  have connected : s'.mysql_ ≠ none := by rwa [quiet.mysql_]
  exact ⟨quiet, quiet.trans ((quiet.owns owns).call_mysql answers connected)⟩

theorem Owns.insert (owns : s.Owns) (kv : MData String) (table : String) :
    Quiet s (s.insert answers kv table).2 := by
  unfold CMysql.insert
  split
  · exact .refl s
  next ready =>
    have connected : s.mysql_ ≠ none := by grind
    split
    next queried => exact (owns.query_call answers connected queried).1
    next queried => exact (owns.query_call answers connected queried).2

theorem Owns.update (owns : s.Owns) (kv : MData String) (table filter : String) :
    Quiet s (s.update answers kv table filter).2 := by
  unfold CMysql.update
  split
  · exact .refl s
  next ready =>
    have connected : s.mysql_ ≠ none := by grind
    split
    next queried => exact (owns.query_call answers connected queried).1
    next queried => exact (owns.query_call answers connected queried).2

/-! ## Results and connections that are closed -/

theorem Owns.freeResult (owns : s.Owns) : Frees s s.freeResult := by
  unfold CMysql.freeResult
  split
  next none => exact ⟨owns, .refl _, by simp [none]⟩
  next r there =>
    obtain ⟨c, connected⟩ := Option.ne_none_iff_exists'.mp
      (fun absent => by simp [owns.connected absent] at there : s.mysql_ ≠ none)
    have older := owns.older c r connected there
    have live : s.api.live = [(r, some c), (c, none)] := by
      simp [owns.live, owned, there, connected]
    have released := Handles.release_latest live (by grind) (by grind)
    refine ⟨?_, .release _ _, by simp⟩
    have below := owns.below
    have misused := owns.misused
    constructor <;> simp_all [owned]

theorem freeResult_mysql_ (s : CMysql) : s.freeResult.mysql_ = s.mysql_ := by
  unfold CMysql.freeResult
  split <;> rfl

theorem freeResult_result_ (s : CMysql) : s.freeResult.result_ = none := by
  unfold CMysql.freeResult
  split
  next none => exact none
  next => rfl

theorem close_mysql_ (s : CMysql) : s.close.mysql_ = none := by
  unfold CMysql.close
  dsimp only
  split
  next none => exact none
  next => rfl

theorem Owns.close (owns : s.Owns) : Frees s s.close := by
  have freed := owns.freeResult
  have gone := s.freeResult_result_
  unfold CMysql.close
  dsimp only
  split
  next none => exact freed
  next c connected =>
    have live : s.freeResult.api.live = [(c, none)] := by
      simp [freed.owns.live, owned, gone, connected]
    have released := Handles.release_latest live (by grind) (by grind)
    have misused := freed.owns.misused
    refine ⟨?_, freed.later.trans (.release _ _), by simp [gone]⟩
    constructor <;> simp_all [owned]

theorem Owns.init (owns : s.Owns) : Frees s (s.init answers).2 := by
  have closed := owns.close
  have gone := s.close_mysql_
  have free : s.close.result_ = none := closed.owns.connected gone
  have live : s.close.api.live = [] := by simp [closed.owns.live, owned, gone, free]
  have misused := closed.owns.misused
  unfold CMysql.init
  dsimp only
  split
  · refine ⟨?_, closed.later.trans (.acquire _ _), by simp [free]⟩
    constructor <;> simp_all [owned, Handles.acquire]
  · refine ⟨?_, closed.later, by simp [free]⟩
    constructor <;> simp_all [owned]

/-- Without a connection there is no result, so `init` frees none. -/
theorem Owns.ensureInit (owns : s.Owns) : Keeps s (s.ensureInit answers).2 := by
  unfold CMysql.ensureInit
  split
  · exact (Quiet.refl s).keeps owns
  next absent =>
    have inited := owns.init answers
    have absent : s.result_ = none := owns.connected (by simpa using absent)
    have free : (s.init answers).2.result_ = none := by
      unfold CMysql.init
      dsimp only
      have gone := s.close_mysql_
      have gone := owns.close.owns.connected gone
      split <;> exact gone
    exact ⟨inited.owns, inited.later, by rw [free, absent]⟩

theorem ensureInit_connected (s : CMysql) (ok : (s.ensureInit answers).1) :
    (s.ensureInit answers).2.mysql_ ≠ none := by
  unfold CMysql.ensureInit CMysql.init at *
  grind

theorem Owns.connect (owns : s.Owns) (peer : Server) : Keeps s (s.connect answers peer).2 := by
  have kept := owns.ensureInit answers
  have ready := s.ensureInit_connected answers
  unfold CMysql.connect
  split
  next inited => exact inited ▸ kept
  next s' inited =>
    rw [inited] at kept ready
    have connected : s'.mysql_ ≠ none := ready rfl
    have called := kept.owns.call_mysql answers connected
    dsimp only
    split
    · refine kept.trans (Quiet.keeps ⟨rfl, rfl, called.api, rfl⟩ kept.owns)
    · let asked := { (s'.call answers s'.mysql_).2 with server := some peer }
      have asked' : Quiet s' asked := ⟨rfl, rfl, called.api, rfl⟩
      exact kept.trans
        ((asked'.trans ((asked'.owns kept.owns).touch_mysql connected)).keeps kept.owns)

theorem Frees.quiet (frees : Frees s s') (quiet : Quiet s' t) : Frees s t :=
  ⟨quiet.owns frees.owns, quiet.api ▸ frees.later, fun r there => frees.result_ r (quiet.result_ ▸ there)⟩

/-- A result is opened on the connection when there is none. -/
theorem Owns.opened (owns : s.Owns) (connected : s.mysql_ ≠ none) (gone : s.result_ = none)
    (stored : Bool) (rows : List Row) :
    Frees s { s with
      result_ := some s.api.next, stored := stored, rows := rows
      api := s.api.acquire s.mysql_ } := by
  obtain ⟨c, there⟩ := Option.ne_none_iff_exists'.mp connected
  have older := owns.connection_lt there
  obtain ⟨live, -, -, below, misused⟩ := owns
  simp only [owned, gone, there, Option.map_none, Option.toList_none, Option.map_some,
    Option.toList_some, List.nil_append] at live
  refine ⟨?_, .acquire _ _, by simp⟩
  constructor <;> grind [owned, Handles.acquire]

theorem Owns.openResult (owns : s.Owns) (stored : Bool) :
    Frees s (s.openResult answers stored).2 := by
  unfold CMysql.openResult
  split
  next absent =>
    have absent := owns.connected (by simpa using absent)
    exact ⟨owns, .refl _, by simp [absent]⟩
  next connected =>
    have connected : s.mysql_ ≠ none := by simpa using connected
    have freed := owns.freeResult
    have same := s.freeResult_mysql_
    rw [← same] at connected ⊢
    have asked := freed.owns.call_mysql answers connected
    have owns' := asked.owns freed.owns
    dsimp only
    split
    · have opened := owns'.opened connected (asked.result_.trans s.freeResult_result_) stored
      refine ⟨(opened _).owns, freed.later.trans (asked.api ▸ (opened []).later), fun r there => ?_⟩
      exact Nat.le_trans (asked.api ▸ freed.later.next_le) ((opened _).result_ r there)
    · exact freed.quiet (asked.trans (owns'.touch_mysql connected))

theorem Frees.trans (first : Frees s s') (second : Frees s' t) : Frees s t :=
  ⟨second.owns, first.later.trans second.later,
    fun r there => Nat.le_trans first.later.next_le (second.result_ r there)⟩

theorem Owns.getResult (owns : s.Owns) (sql : Option String) :
    Frees s (s.getResult answers sql).2 := by
  have freed := owns.freeResult
  have queried := freed.quiet (freed.owns.query answers sql 0)
  unfold CMysql.getResult
  split
  next failed => rwa [failed] at queried
  next s₁ asked =>
    rw [asked] at queried
    have stored := queried.trans (queried.owns.openResult answers true)
    split
    next failed =>
      unfold CMysql.storeResult at failed
      rwa [failed] at stored
    next s₂ opened =>
      unfold CMysql.storeResult at opened
      rw [opened] at stored
      exact stored.quiet (stored.owns.fetchRows answers _)

/-! ## Statements -/

/-- A statement is open on the connection. -/
structure Prepares (s s' : CMysql) (stmt : Nat) : Prop where
  mysql_ : s'.mysql_ = s.mysql_
  result_ : s'.result_ = s.result_
  api : s'.api = s.api.acquire s.mysql_
  unallocated : s'.unallocated = s.unallocated
  stmt : stmt = s.api.next

theorem Prepares.use {stmt : Nat} (prepares : Prepares s s' stmt) :
    s'.api.use (some stmt) = s'.api := by
  refine Handles.use_live ?_
  simp [prepares.api, prepares.stmt, Handles.isLive_iff, Handles.acquire]

theorem Prepares.call {stmt : Nat} (prepares : Prepares s s' stmt) :
    Prepares s (s'.call answers (some stmt)).2 stmt :=
  ⟨prepares.mysql_, prepares.result_, prepares.use.trans prepares.api, prepares.unallocated,
    prepares.stmt⟩

theorem Prepares.touch {stmt : Nat} (prepares : Prepares s s' stmt) :
    Prepares s (s'.touch (some stmt)) stmt :=
  ⟨prepares.mysql_, prepares.result_, prepares.use.trans prepares.api, prepares.unallocated,
    prepares.stmt⟩

theorem Prepares.statementCalls {stmt : Nat} (prepares : Prepares s s' stmt) (n : Nat) :
    Prepares s (s'.statementCalls answers stmt n).2 stmt := by
  induction n generalizing s' with
  | zero => exact prepares
  | succ n ih =>
    unfold CMysql.statementCalls
    dsimp only
    split
    · exact ih (prepares.call answers)
    · exact (prepares.call answers).touch

/-- The statement is closed. -/
theorem Prepares.release {stmt : Nat} (prepares : Prepares s s' stmt) (owns : s.Owns) :
    Keeps s { s' with api := s'.api.release stmt } := by
  obtain ⟨mysql_, result_, api, unallocated, rfl⟩ := prepares
  have latest : s'.api.live = (s.api.next, s.mysql_) :: s.api.live := by rw [api]; rfl
  have free : ∀ e ∈ (s.api.next, s.mysql_) :: s.api.live, e.2 ≠ some s.api.next := by
    intro e mem owned
    have lt := owns.connection_lt (c := s.api.next)
    have owner := owns.owner (e := e)
    grind
  have released := Handles.release_latest latest free fun e mem => Nat.ne_of_lt (owns.below e mem)
  obtain ⟨live, connected, older, below, misused⟩ := owns
  refine ⟨?_, ?_, result_⟩
  · constructor <;> grind [owned]
  · rw [api]
    exact (Handles.Later.acquire _ _).trans (.release _ _)

theorem Owns.runStatement (owns : s.Owns) (connected : s.mysql_ ≠ none) (wanted : Bool) :
    Keeps s (s.runStatement answers wanted).2 := by
  have asked := owns.call_mysql answers connected
  unfold CMysql.runStatement
  dsimp only
  split
  · -- there is no statement, and the message is asked of the null pointer
    have later := Handles.Later.use (s.call answers s.mysql_).2.api none
    refine ⟨?_, asked.api ▸ later, asked.result_⟩
    obtain ⟨live, connected, older, below, misused⟩ := asked.owns owns
    exact ⟨live, connected, older, below, rfl⟩
  · let s₁ := (s.call answers s.mysql_).2
    have owns₁ : s₁.Owns := asked.owns owns
    have opened : Prepares s₁ { s₁ with api := s₁.api.acquire s₁.mysql_ } s₁.api.next :=
      ⟨rfl, rfl, rfl, rfl, rfl⟩
    have called := opened.statementCalls answers 3
    have first := asked.keeps owns
    split
    next failed =>
      rw [failed] at called
      exact first.trans (called.release owns₁)
    next s₂ executed =>
      rw [executed] at called
      cases wanted
      · exact first.trans (called.release owns₁)
      · exact first.trans ((called.call answers).release owns₁)

theorem Owns.insertBin (owns : s.Owns) {kv : MData Datum} {table : String} {ok : Bool}
    (inserted : s.insertBin answers kv table = some (ok, s')) : Keeps s s' := by
  unfold CMysql.insertBin at inserted
  split at inserted
  · cases inserted
    exact (Quiet.refl s).keeps owns
  · simp at inserted
  next statement =>
    have connected : s.mysql_ ≠ none := by
      intro absent
      simp [Mysql.insertBin, absent] at statement
    cases inserted
    exact owns.runStatement answers connected false

theorem Owns.updateBin (owns : s.Owns) {kv : MData Datum} {table filter : String} {rows : Int32}
    (updated : s.updateBin answers kv table filter = some (rows, s')) : Keeps s s' := by
  unfold CMysql.updateBin at updated
  split at updated
  · cases updated
    exact (Quiet.refl s).keeps owns
  · simp at updated
  next statement =>
    have connected : s.mysql_ ≠ none := by
      intro absent
      simp [Mysql.updateBin, absent] at statement
    cases updated
    exact owns.runStatement answers connected true

/-! ## Runs -/

/-- The calls that free the result. -/
def Call.frees : Call → Bool
  | .init | .close | .storeResult | .useResult | .freeResult | .getResult _ => true
  | _ => false

/-- What a call does to the result. -/
theorem Owns.step (owns : s.Owns) {call : Call} (step : s.step answers call = some s') :
    if call.frees then Frees s s' else Keeps s s' := by
  cases call with
  | insertBin kv table =>
    obtain ⟨⟨ok, t⟩, inserted, rfl⟩ := Option.map_eq_some_iff.mp step
    exact owns.insertBin answers inserted
  | updateBin kv table filter =>
    obtain ⟨⟨rows, t⟩, updated, rfl⟩ := Option.map_eq_some_iff.mp step
    exact owns.updateBin answers updated
  | _ =>
    obtain rfl := Option.some.inj step
    first
      | exact owns.init answers
      | exact owns.close
      | exact owns.freeResult
      | exact owns.openResult answers _
      | exact owns.getResult answers _
      | exact owns.connect answers _
      | exact (owns.query answers _ _).keeps owns
      | exact (owns.option answers).keeps owns
      | exact (owns.getInsertId answers).keeps owns
      | exact (owns.fetchRow answers).keeps owns
      | exact (owns.insert answers _ _).keeps owns
      | exact (owns.update answers _ _ _).keeps owns

theorem Owns.step_owns (owns : s.Owns) {call : Call} (step : s.step answers call = some s') :
    s'.Owns ∧ s.api.Later s'.api := by
  have changed := owns.step answers step
  split at changed
  · exact ⟨changed.owns, changed.later⟩
  · exact ⟨changed.owns, changed.later⟩

theorem Owns.run (owns : s.Owns) {calls : List Call} (run : (machine answers).run s calls = some t) :
    t.Owns ∧ s.api.Later t.api := by
  refine (machine answers).run_invariant_always (I := fun u => u.Owns ∧ s.api.Later u.api) ?_
    ⟨owns, .refl _⟩ run
  rintro u call v ⟨owns, later⟩ - step
  obtain ⟨owns', later'⟩ := owns.step_owns answers step
  exact ⟨owns', later.trans later'⟩

/-- Nothing is open but the connection and the result of the object, `close` closes them, and the
only call with a handle that is not open is the message for a statement that was not allocated. -/
theorem handles_accounted {calls : List Call} (run : (machine answers).run {} calls = some s) :
    s.api.live = s.owned ∧ s.close.api.live = [] ∧ s.api.misused = s.unallocated := by
  have owns := (Owns.start.run answers run).1
  have closed := owns.close
  have gone := s.close_mysql_
  have none := closed.owns.connected gone
  exact ⟨owns.live, by simp [closed.owns.live, owned, gone, none], owns.misused⟩

/-! ## How long rows can be read -/

/-- The result that the object refers to is the one that is open. -/
theorem Owns.isLive_iff (owns : s.Owns) {r : Nat} (there : s.result_ = some r)
    (run : t.Owns ∧ s.api.Later t.api) : t.api.isLive r ↔ t.result_ = some r := by
  obtain ⟨owns', later⟩ := run
  obtain ⟨c, connected⟩ := Option.ne_none_iff_exists'.mp
    (fun absent => by simp [owns.connected absent] at there : s.mysql_ ≠ none)
  have live : s.api.live = [(r, some c), (c, none)] := by
    simp [owns.live, owned, there, connected]
  have older := owns.older c r connected there
  have opened := owns.below (r, some c) (by simp [live])
  rw [Handles.isLive_iff]
  constructor
  · rintro ⟨e, mem, rfl⟩
    have origin := later.live e mem
    have mem' := owns'.live ▸ mem
    simp only [owned, List.mem_append, Option.mem_toList, Option.map_eq_some_iff] at mem'
    rcases mem' with ⟨r', there', rfl⟩ | ⟨c', there', rfl⟩
    · exact there'
    · grind
  · intro there'
    refine ⟨(r, t.mysql_), ?_, rfl⟩
    simp [owns'.live, owned, there']

/-- A row that `getResult` gave can be read as long as nothing is called that frees the result. -/
theorem Owns.readable_iff (owns : s.Owns) {r : Nat} (there : s.result_ = some r) {calls : List Call}
    (run : (machine answers).run s calls = some t) :
    t.api.isLive r ↔ ∀ call ∈ calls, call.frees = false := by
  induction calls generalizing s with
  | nil =>
    obtain rfl := Option.some.inj run
    simp [owns.isLive_iff there ⟨owns, .refl _⟩, there]
  | cons call calls ih =>
    obtain ⟨u, step, rest⟩ := Option.bind_eq_some_iff.mp run
    have changed := owns.step answers step
    cases frees : call.frees with
    | false =>
      rw [frees] at changed
      have changed : Keeps s u := by simpa using changed
      rw [ih changed.owns (changed.result_.trans there) rest]
      simp [frees]
    | true =>
      rw [frees] at changed
      have changed : Frees s u := by simpa using changed
      have opened : r < s.api.next := owns.below (r, s.mysql_) (by simp [owns.live, owned, there])
      have closed : ¬u.api.isLive r := by
        rw [owns.isLive_iff there ⟨changed.owns, changed.later⟩]
        intro still
        have := changed.result_ r still
        omega
      have later := (changed.owns.run answers rest).2
      have dead := later.not_isLive (Nat.lt_of_lt_of_le opened changed.later.next_le) closed
      simp [dead, frees]

/-- The rows that MySQL has for a query, if it can be made. -/
def selected (sql : Option String) (s : CMysql) : List Row :=
  if s.mysql_.isSome ∧ sql.any (cstr · ≠ "") ∧ (answers s.asked).ok ∧ (answers (s.asked + 1)).ok then
    (answers (s.asked + 1)).rows
  else []

theorem fetchRows_rows {r n : Nat} (there : s.result_ = some r) (stored : s.stored = true)
    (enough : s.rows.length < n) :
    (s.fetchRows answers n).1 = (s.rows.takeWhile (· ≠ [])).map (·.map (cell r)) := by
  induction n generalizing s with
  | zero => omega
  | succ n ih =>
    cases rows : s.rows with
    | nil => simp [CMysql.fetchRows, CMysql.fetchRow, there, stored, rows, CMysql.call]
    | cons row rest =>
      cases row with
      | nil => simp [CMysql.fetchRows, CMysql.fetchRow, there, stored, rows, CMysql.call]
      | cons column columns =>
        have short : rest.length < n := by simpa [rows] using enough
        simp [CMysql.fetchRows, CMysql.fetchRow, there, stored, rows, CMysql.call, CMysql.touch, ih,
          short]

theorem fetchRows_result_ (n : Nat) (s : CMysql) :
    (s.fetchRows answers n).2.result_ = s.result_ := by
  have fetched (s : CMysql) : (s.fetchRow answers).2.result_ = s.result_ := by
    unfold CMysql.fetchRow
    split
    · rfl
    dsimp only
    split <;> rfl
  fun_induction CMysql.fetchRows answers n s with
  | case1 => rfl
  | case2 n s s' row => exact (congrArg (·.2.result_) row).symm.trans (fetched s)
  | case3 n s row s' _ row' ih =>
    exact ih.trans ((congrArg (·.2.result_) row').symm.trans (fetched s))

theorem freeResult_asked (s : CMysql) : s.freeResult.asked = s.asked := by
  unfold CMysql.freeResult
  split <;> rfl

theorem query_inv {sql : Option String} {ok : Bool} (queried : s.query answers sql 0 = (ok, s')) :
    ok = (s.mysql_.isSome && sql.any (cstr · ≠ "") && (answers s.asked).ok) ∧
      (ok → s'.mysql_ = s.mysql_ ∧ s'.asked = s.asked + 1) := by
  unfold CMysql.query at queried
  split at queried
  next absent => cases queried; simp [absent]
  next => cases queried; simp
  next c sql connected =>
    have empty : (cstr sql).utf8ByteSize = 0 ↔ cstr sql = "" := String.utf8ByteSize_eq_zero_iff
    simp only [if_true, empty] at queried
    split at queried
    next nothing => cases queried; simp [nothing]
    next something =>
      by_cases accepted : (answers s.asked).ok
      · simp only [CMysql.call, accepted, if_true] at queried
        cases queried
        simp [connected, something, accepted]
      · simp only [CMysql.call, accepted] at queried
        cases queried
        simp [accepted]

/-- The result is opened with the rows that MySQL has. -/
theorem storeResult_inv {ok : Bool} (connected : s.mysql_.isSome)
    (stored : s.storeResult answers = (ok, s')) :
    ok = (answers s.asked).ok ∧
      (ok → s'.result_ ≠ none ∧ s'.stored = true ∧ s'.rows = (answers s.asked).rows) := by
  have present : s.mysql_.isNone = false := by simpa using connected
  have asked := s.freeResult_asked
  unfold CMysql.storeResult CMysql.openResult at stored
  by_cases accepted : (answers s.asked).ok
  · simp only [present, CMysql.call, asked, accepted, if_true] at stored
    cases stored
    simp [accepted]
  · simp only [present, CMysql.call, asked, accepted] at stored
    cases stored
    simp [accepted]

/-- `getResult` gives all rows, up to one without columns, as pointers into the result. -/
theorem getResult_rows (sql : Option String) (s : CMysql) :
    ∃ r, (s.getResult answers sql).1 =
        ((s.selected answers sql).takeWhile (· ≠ [])).map (·.map (cell r)) ∧
      ((s.getResult answers sql).1 ≠ [] → (s.getResult answers sql).2.result_ = some r) := by
  have queried {ok : Bool} {s' : CMysql} (asked : s.freeResult.query answers sql 0 = (ok, s')) :=
    query_inv answers asked
  rw [freeResult_mysql_, freeResult_asked] at queried
  unfold CMysql.getResult
  split
  next s₁ failed =>
    have none : s.selected answers sql = [] := by
      have ok := (queried failed).1
      grind [selected]
    exact ⟨0, by simp [none], by simp⟩
  next s₁ asked =>
    obtain ⟨ok, rest⟩ := queried asked
    obtain ⟨mysql_, next⟩ := rest rfl
    have connected : s₁.mysql_.isSome := by grind
    split
    next s₂ failed =>
      have none : s.selected answers sql = [] := by
        have refused := (storeResult_inv answers connected failed).1
        grind [selected]
      exact ⟨0, by simp [none], by simp⟩
    next s₂ opened =>
      obtain ⟨accepted, rest⟩ := storeResult_inv answers connected opened
      obtain ⟨there, stored, rows⟩ := rest rfl
      obtain ⟨r, there⟩ := Option.ne_none_iff_exists'.mp there
      have all : s.selected answers sql = s₂.rows := by grind [selected]
      refine ⟨r, ?_, fun _ => ?_⟩
      · rw [all]
        exact fetchRows_rows answers there stored (Nat.lt_succ_self _)
      · exact (fetchRows_result_ answers _ s₂).trans there

/-- Whatever was called before and is called after: `getResult` gives the rows that MySQL has, and
they can be read until something is called that frees the result. -/
theorem rows_readable {before after : List Call} {sql : Option String}
    (earlier : (machine answers).run {} before = some s)
    (later : (machine answers).run (s.getResult answers sql).2 after = some t) :
    ∃ r, (s.getResult answers sql).1 =
        ((s.selected answers sql).takeWhile (· ≠ [])).map (·.map (cell r)) ∧
      ∀ row ∈ (s.getResult answers sql).1, ∀ d ∈ row,
        (t.api.isLive d.data.result ↔ ∀ call ∈ after, call.frees = false) := by
  obtain ⟨r, rows, there⟩ := getResult_rows answers sql s
  refine ⟨r, rows, fun row mem d inRow => ?_⟩
  have owns := (Owns.start.run answers earlier).1.getResult answers sql
  have same : d.data.result = r := by
    rw [rows] at mem
    obtain ⟨columns, -, rfl⟩ := List.mem_map.mp mem
    obtain ⟨column, -, rfl⟩ := List.mem_map.mp inRow
    rfl
  rw [same]
  exact owns.owns.readable_iff answers (there (List.ne_nil_of_mem mem)) later

/-! ## A session -/

/-- Every call succeeds, and a result has one row of one column. -/
def oneRow (_ : Nat) : Answer where
  rows := [[(some [0x61], .CMYSQL_TYPE_STRING)]]
  number := 1

/-- An insert while the result of a query is still there. -/
def session : List Call :=
  [.init, .getResult (some "select 1"), .insertBin (MData.set {} "a" (.ofText "b")) "t"]

theorem handles_accounted_session : ∃ s, (machine oneRow).run {} session = some s ∧
    s.api.live = [(1, some 0), (0, none)] ∧ s.close.api.live = [] ∧ s.api.misused = false := by
  obtain ⟨s, run⟩ : ∃ s, (machine oneRow).run {} session = some s := ⟨_, rfl⟩
  obtain ⟨live, closed, misused⟩ := handles_accounted oneRow run
  cases run
  exact ⟨_, rfl, rfl, closed, misused⟩

/-- The row can be read after the insert, and no longer after another query. -/
theorem rows_readable_session : ∃ s t u,
    (machine oneRow).run {} [.init] = some s ∧
    (machine oneRow).run (s.getResult oneRow (some "select 1")).2 [.commit] = some t ∧
    (machine oneRow).run (s.getResult oneRow (some "select 1")).2
      [.commit, .getResult (some "select 2")] = some u ∧
    (s.getResult oneRow (some "select 1")).1 = [[cell 1 (some [0x61], .CMYSQL_TYPE_STRING)]] ∧
    t.api.isLive 1 ∧ ¬u.api.isLive 1 := by
  obtain ⟨s, opened⟩ : ∃ s, (machine oneRow).run {} [.init] = some s := ⟨_, rfl⟩
  obtain ⟨t, committed⟩ : ∃ t, (machine oneRow).run (s.getResult oneRow (some "select 1")).2
    [.commit] = some t := ⟨_, rfl⟩
  obtain ⟨u, queried⟩ : ∃ u, (machine oneRow).run (s.getResult oneRow (some "select 1")).2
    [.commit, .getResult (some "select 2")] = some u := ⟨_, rfl⟩
  obtain ⟨-, -, readable⟩ := rows_readable oneRow opened committed
  obtain ⟨-, -, readable'⟩ := rows_readable oneRow opened queried
  have rows : (s.getResult oneRow (some "select 1")).1 =
      [[cell 1 (some [0x61], .CMYSQL_TYPE_STRING)]] := by
    cases opened
    rfl
  rw [rows] at readable readable'
  refine ⟨s, t, u, opened, committed, queried, rows, ?_, ?_⟩
  · exact (readable _ List.mem_cons_self _ List.mem_cons_self).mpr (by decide)
  · intro still
    have frees := (readable' _ List.mem_cons_self _ List.mem_cons_self).mp still
    exact absurd frees (by decide)

end CMysql

end MicroserviceFramework.Mysql
