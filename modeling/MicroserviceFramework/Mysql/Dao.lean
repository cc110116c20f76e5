import MicroserviceFramework.Mysql.PreparedSql
import MicroserviceFramework.Mysql.Resources
import Mathlib.Logic.Function.Basic

/-!
# Threads that share a `CMysql`

The functions of a DAO run on the threads of its service and share one connection and one mutex. A
function is a tree of what it does next, given what the last call returned. The rows of a
`getResult` are pointers, so reading them is an action of its own: another thread can come between.
A call of a `CMysql` method is one action. Without the mutex nothing in the code keeps two calls from
overlapping; that they do not is assumed here.

`stale_iff` says when all rows that are read are still there, and `Guarded` functions never read
others.
-/

namespace MicroserviceFramework.Mysql

open Library

inductive Dao where
  | done
  | lock (next : Dao)
  | unlock (next : Dao)
  | getResult (sql : String) (next : CRows → Dao)
  /-- What the rows of the last `getResult` point to is copied. -/
  | read (next : Dao)
  | query (sql : String) (next : Bool → Dao)
  | insert (kv : MData String) (table : String) (next : Bool → Dao)
  | insertBin (kv : MData Datum) (table : String) (next : Bool → Dao)
  | updateBin (kv : MData Datum) (table filter : String) (next : Int32 → Dao)
  | getInsertId (next : Int32 → Dao)

/-! ## Functions -/

namespace Dao

/-- One function after the other. -/
def andThen : Dao → Dao → Dao
  | done, after => after
  | lock next, after => lock (next.andThen after)
  | unlock next, after => unlock (next.andThen after)
  | getResult sql next, after => getResult sql fun rows => (next rows).andThen after
  | read next, after => read (next.andThen after)
  | query sql next, after => query sql fun ok => (next ok).andThen after
  | insert kv table next, after => insert kv table fun ok => (next ok).andThen after
  | insertBin kv table next, after => insertBin kv table fun ok => (next ok).andThen after
  | updateBin kv table filter next, after =>
    updateBin kv table filter fun n => (next n).andThen after
  | getInsertId next, after => getInsertId fun id => (next id).andThen after

def all (functions : List Dao) : Dao := functions.foldr andThen done

inductive Phase where
  | outside | locked | holding
  deriving DecidableEq, Repr

/-- Nothing is done without the mutex, it is taken once at a time, the rows that are read are those
got since it was taken, and no array of bindings is overrun. -/
def Guarded : Dao → Phase → Prop
  | done, p => p = .outside
  | lock next, p => p = .outside ∧ next.Guarded .locked
  | unlock next, p => p ≠ .outside ∧ next.Guarded .outside
  | getResult _ next, p => p ≠ .outside ∧ ∀ rows, (next rows).Guarded .holding
  | read next, p => p = .holding ∧ next.Guarded .holding
  | query _ next, p => p ≠ .outside ∧ ∀ ok, (next ok).Guarded p
  | insert _ _ next, p => p ≠ .outside ∧ ∀ ok, (next ok).Guarded p
  | insertBin kv _ next, p =>
    (p ≠ .outside ∧ kv.entries.length ≤ 256) ∧ ∀ ok, (next ok).Guarded p
  | updateBin kv _ _ next, p =>
    (p ≠ .outside ∧ kv.entries.length ≤ 256) ∧ ∀ n, (next n).Guarded p
  | getInsertId next, p => p ≠ .outside ∧ ∀ id, (next id).Guarded p

theorem Guarded.andThen {d after : Dao} {p : Phase} (first : d.Guarded p)
    (second : after.Guarded .outside) : (d.andThen after).Guarded p := by
  induction d generalizing p with
  | done => exact first ▸ second
  | lock next ih => exact ⟨first.1, ih first.2⟩
  | unlock next ih => exact ⟨first.1, ih first.2⟩
  | getResult sql next ih => exact ⟨first.1, fun rows => ih rows (first.2 rows)⟩
  | read next ih => exact ⟨first.1, ih first.2⟩
  | query sql next ih => exact ⟨first.1, fun ok => ih ok (first.2 ok)⟩
  | insert kv table next ih => exact ⟨first.1, fun ok => ih ok (first.2 ok)⟩
  | insertBin kv table next ih => exact ⟨first.1, fun ok => ih ok (first.2 ok)⟩
  | updateBin kv table filter next ih => exact ⟨first.1, fun n => ih n (first.2 n)⟩
  | getInsertId next ih => exact ⟨first.1, fun id => ih id (first.2 id)⟩

theorem Guarded.all {functions : List Dao} (each : ∀ d ∈ functions, d.Guarded .outside) :
    (Dao.all functions).Guarded .outside := by
  induction functions with
  | nil => exact rfl
  | cons d functions ih =>
    have rest := ih fun d mem => each d (List.mem_cons_of_mem _ mem)
    exact (each d List.mem_cons_self).andThen rest

end Dao

/-- The threads of a service, its connection and its mutex. -/
structure Shared (θ : Type*) where
  db : CMysql
  holder : Option θ := none
  todo : θ → Dao
  /-- The rows of the last `getResult` of each thread. -/
  rows : θ → CRows := fun _ => []
  /-- The thread that called `getResult` last. -/
  last : Option θ := none
  /-- A row was read after its result was freed. -/
  stale : Bool := false

/-- All rows can be read. -/
def CRows.live (rows : CRows) (db : CMysql) : Bool :=
  rows.all fun row => row.all fun d => db.api.isLive d.data.result

namespace Shared

variable {θ : Type*} [DecidableEq θ] (answers : Nat → Answer)

def goOn (s : Shared θ) (t : θ) (db : CMysql) (next : Dao) : Shared θ :=
  { s with db := db, todo := Function.update s.todo t next }

/-- The next action of thread `t`, if it has one and does not wait for the mutex. Calls of the
connection are whole. -/
def step (s : Shared θ) (t : θ) : Option (Shared θ) :=
  match s.todo t with
  | .done => none
  | .lock next => if s.holder = none then some { s.goOn t s.db next with holder := some t } else none
  | .unlock next => some { s.goOn t s.db next with holder := none }
  | .getResult sql next =>
    let (rows, db) := s.db.getResult answers (some sql)
    some { s.goOn t db (next rows) with rows := Function.update s.rows t rows, last := some t }
  | .read next => some { s.goOn t s.db next with stale := s.stale || !(s.rows t).live s.db }
  | .query sql next =>
    let (ok, db) := s.db.query answers (some sql) 0
    some (s.goOn t db (next ok))
  | .insert kv table next =>
    let (ok, db) := s.db.insert answers kv table
    some (s.goOn t db (next ok))
  | .insertBin kv table next =>
    (s.db.insertBin answers kv table).map fun (ok, db) => s.goOn t db (next ok)
  | .updateBin kv table filter next =>
    (s.db.updateBin answers kv table filter).map fun (n, db) => s.goOn t db (next n)
  | .getInsertId next =>
    let (id, db) := s.db.getInsertId answers
    some (s.goOn t db (next id))

def machine : Machine (Shared θ) θ := ⟨step answers⟩

/-- A thread that reads rows is the last that called `getResult`. -/
def OwnRows (s : Shared θ) (t : θ) : Prop :=
  ∀ next, s.todo t = .read next → (∃ row ∈ s.rows t, row ≠ []) → s.last = some t

/-- What a step is: it takes or leaves the mutex, gets rows, reads them, or calls the connection
for something else. -/
inductive Steps (s : Shared θ) (t : θ) : Shared θ → Prop
  | lock {next : Dao} (todo : s.todo t = .lock next) (free : s.holder = none) :
    Steps s t { s.goOn t s.db next with holder := some t }
  | unlock {next : Dao} (todo : s.todo t = .unlock next) :
    Steps s t { s.goOn t s.db next with holder := none }
  | getResult {sql : String} {next : CRows → Dao} (todo : s.todo t = .getResult sql next) :
    Steps s t { s.goOn t (s.db.getResult answers (some sql)).2
        (next (s.db.getResult answers (some sql)).1) with
      rows := Function.update s.rows t (s.db.getResult answers (some sql)).1, last := some t }
  | read {next : Dao} (todo : s.todo t = .read next) :
    Steps s t { s.goOn t s.db next with stale := s.stale || !(s.rows t).live s.db }
  | call {db : CMysql} {next : Dao} (kept : s.db.Owns → CMysql.Keeps s.db db)
    (todo : ∀ next, s.todo t ≠ .read next)
    (guarded : ∀ p, (s.todo t).Guarded p → p ≠ .outside ∧ next.Guarded p) :
    Steps s t (s.goOn t db next)

theorem step_cases {s s' : Shared θ} {t : θ} (step : s.step answers t = some s') :
    Steps answers s t s' := by
  unfold Shared.step at step
  cases todo : s.todo t with
  | done => simp [todo] at step
  | lock next =>
    obtain ⟨free, rfl⟩ : s.holder = none ∧ _ = s' := by simpa [todo] using step
    exact .lock todo free
  | unlock next =>
    obtain rfl : _ = s' := by simpa [todo] using step
    exact .unlock todo
  | getResult sql next =>
    obtain rfl : _ = s' := by simpa [todo] using step
    exact .getResult todo
  | read next =>
    obtain rfl : _ = s' := by simpa [todo] using step
    exact .read todo
  | query sql next =>
    obtain rfl : _ = s' := by simpa [todo] using step
    exact .call (fun owns => (owns.query answers _ _).keeps owns) (by simp [todo])
      fun p guarded => ⟨(todo ▸ guarded).1, (todo ▸ guarded).2 _⟩
  | insert kv table next =>
    obtain rfl : _ = s' := by simpa [todo] using step
    exact .call (fun owns => (owns.insert answers _ _).keeps owns) (by simp [todo])
      fun p guarded => ⟨(todo ▸ guarded).1, (todo ▸ guarded).2 _⟩
  | insertBin kv table next =>
    simp only [todo] at step
    obtain ⟨⟨ok, db⟩, inserted, rfl⟩ := Option.map_eq_some_iff.mp step
    exact .call (fun owns => owns.insertBin answers inserted) (by simp [todo])
      fun p guarded => ⟨(todo ▸ guarded).1.1, (todo ▸ guarded).2 _⟩
  | updateBin kv table filter next =>
    simp only [todo] at step
    obtain ⟨⟨n, db⟩, updated, rfl⟩ := Option.map_eq_some_iff.mp step
    exact .call (fun owns => owns.updateBin answers updated) (by simp [todo])
      fun p guarded => ⟨(todo ▸ guarded).1.1, (todo ▸ guarded).2 _⟩
  | getInsertId next =>
    obtain rfl : _ = s' := by simpa [todo] using step
    exact .call (fun owns => (owns.getInsertId answers).keeps owns) (by simp [todo])
      fun p guarded => ⟨(todo ▸ guarded).1, (todo ▸ guarded).2 _⟩

/-! ## Rows that are still there -/

/-- The result `r` of some thread is open exactly if the connection still refers to it, which it
does as long as the thread is the last. -/
structure Current (db : CMysql) (isLast : Prop) (r : Nat) : Prop where
  opened : r < db.api.next
  live : db.api.isLive r ↔ db.result_ = some r
  isLast : db.result_ = some r ↔ isLast

theorem Current.keeps {db db' : CMysql} {isLast : Prop} {r : Nat} (current : Current db isLast r)
    (owns : db.Owns) (kept : CMysql.Keeps db db') : Current db' isLast r := by
  refine ⟨Nat.lt_of_lt_of_le current.opened kept.later.next_le, ?_, kept.result_ ▸ current.isLast⟩
  by_cases there : db.result_ = some r
  · exact owns.isLive_iff there ⟨kept.owns, kept.later⟩
  · have dead := kept.later.not_isLive current.opened fun live => there (current.live.mp live)
    rw [kept.result_]
    exact iff_of_false dead there

theorem Current.frees {db db' : CMysql} {isLast : Prop} {r : Nat} (current : Current db isLast r)
    (owns : db.Owns) (freed : CMysql.Frees db db') : Current db' False r := by
  have opened := current.opened
  have gone : db'.result_ ≠ some r := by
    intro still
    have newer := freed.result_ r still
    omega
  refine ⟨Nat.lt_of_lt_of_le opened freed.later.next_le, iff_of_false ?_ gone,
    iff_of_false gone id⟩
  by_cases there : db.result_ = some r
  · rw [owns.isLive_iff there ⟨freed.owns, freed.later⟩]
    exact gone
  · exact freed.later.not_isLive opened fun live => there (current.live.mp live)

structure Sound (s : Shared θ) : Prop where
  owns : s.db.Owns
  rows : ∀ t, ∀ row ∈ s.rows t, ∀ d ∈ row, Current s.db (s.last = some t) d.data.result

variable {answers} {s s' : Shared θ} {t : θ}

omit [DecidableEq θ] in
theorem Sound.keeps {db : CMysql} (sound : s.Sound) (kept : CMysql.Keeps s.db db)
    (db_eq : s'.db = db) (rows_eq : s'.rows = s.rows) (last_eq : s'.last = s.last) : s'.Sound := by
  subst db_eq
  refine ⟨kept.owns, fun u row mem d inRow => ?_⟩
  rw [rows_eq] at mem
  rw [last_eq]
  exact (sound.rows u row mem d inRow).keeps sound.owns kept

/-- The rows that a thread gets are current, and those of the others are not any more. -/
theorem Sound.getResult (sound : s.Sound) (sql : Option String) (next : Dao) :
    Sound { s.goOn t (s.db.getResult answers sql).2 next with
      rows := Function.update s.rows t (s.db.getResult answers sql).1, last := some t } := by
  have freed := sound.owns.getResult answers sql
  refine ⟨freed.owns, fun u row mem d inRow => ?_⟩
  dsimp only [goOn] at mem ⊢
  by_cases same : u = t
  · subst same
    obtain ⟨r, rows, there⟩ := CMysql.getResult_rows answers sql s.db
    rw [Function.update_self] at mem
    have there := there (List.ne_nil_of_mem mem)
    have own : d.data.result = r := by
      rw [rows] at mem
      obtain ⟨columns, -, rfl⟩ := List.mem_map.mp mem
      obtain ⟨column, -, rfl⟩ := List.mem_map.mp inRow
      rfl
    rw [own]
    have live := freed.owns.isLive_iff there ⟨freed.owns, .refl _⟩
    have entry : (r, (s.db.getResult answers sql).2.mysql_) ∈
        (s.db.getResult answers sql).2.api.live := by
      simp [freed.owns.live, CMysql.owned, there]
    exact ⟨freed.owns.below _ entry, live, by simp [there]⟩
  · rw [Function.update_of_ne same] at mem
    have dead := (sound.rows u row mem d inRow).frees sound.owns freed
    have other : ¬some t = some u := fun eq => same (Option.some.inj eq).symm
    simpa [other] using dead

theorem Sound.step (sound : s.Sound) (step : s.step answers t = some s') : s'.Sound := by
  have same := (CMysql.Quiet.refl s.db).keeps sound.owns
  cases step_cases answers step with
  | lock todo free => exact sound.keeps same rfl rfl rfl
  | unlock todo => exact sound.keeps same rfl rfl rfl
  | getResult todo => exact sound.getResult _ _
  | read todo => exact sound.keeps same rfl rfl rfl
  | call kept todo guarded => exact sound.keeps (kept sound.owns) rfl rfl rfl

omit [DecidableEq θ] in
/-- The rows of a thread can be read if it is the last that called `getResult`, or has none. -/
theorem Sound.live_iff (sound : s.Sound) (t : θ) :
    (s.rows t).live s.db ↔ ((∃ row ∈ s.rows t, row ≠ []) → s.last = some t) := by
  simp only [CRows.live, List.all_eq_true]
  constructor
  · rintro live ⟨row, mem, some_column⟩
    obtain ⟨d, inRow⟩ := List.exists_mem_of_ne_nil row some_column
    have current := sound.rows t row mem d inRow
    exact current.isLast.mp (current.live.mp (live row mem d inRow))
  · intro last row mem d inRow
    have current := sound.rows t row mem d inRow
    exact current.live.mpr (current.isLast.mpr (last ⟨row, mem, List.ne_nil_of_mem inRow⟩))

/-! ## Runs -/

theorem stale_of_step (step : s.step answers t = some s') (stale : s.stale = true) :
    s'.stale = true := by
  cases step_cases answers step <;> simp [goOn, stale]

/-- A step reads a freed row if it reads rows that are not the thread's own any more. -/
theorem Sound.stale_step (sound : s.Sound) (step : s.step answers t = some s') :
    s'.stale = false ↔ s.stale = false ∧ s.OwnRows t := by
  have other (notRead : ∀ next, s.todo t ≠ .read next) :
      s.stale = false ↔ s.stale = false ∧ s.OwnRows t :=
    (and_iff_left fun next reads => absurd reads (notRead next)).symm
  cases step_cases answers step with
  | lock todo free => exact other (by simp [todo])
  | unlock todo => exact other (by simp [todo])
  | getResult todo => exact other (by simp [todo])
  | read todo =>
    rename_i next
    have own : s.OwnRows t ↔ (s.rows t).live s.db = true := by
      rw [sound.live_iff t]
      exact ⟨fun own => own next todo, fun own _ _ => own⟩
    simp [own]
  | call kept todo guarded => exact other todo

theorem stale_of_run {ts : List θ} (run : (machine answers).run s ts = some s')
    (stale : s.stale = true) : s'.stale ≠ false := by
  have pres : (machine answers).Preserves (fun _ _ => True) fun s : Shared θ => s.stale = true := by
    intro s t s' stale _ step
    exact stale_of_step step stale
  simp [(machine answers).run_invariant_always pres stale run]

/-- In no step of a run a freed row is read exactly if the threads only read rows that are their
own. -/
theorem Sound.stale_iff {ts : List θ} (sound : s.Sound) (fresh : s.stale = false)
    (run : (machine answers).run s ts = some s') :
    s'.stale = false ↔ (machine answers).Along OwnRows s ts := by
  induction ts generalizing s with
  | nil =>
    obtain rfl := Option.some.inj run
    exact iff_of_true fresh trivial
  | cons t ts ih =>
    obtain ⟨u, step, rest⟩ := Option.bind_eq_some_iff.mp run
    have here := sound.stale_step step
    have along : (machine answers).Along OwnRows s (t :: ts) ↔
        s.OwnRows t ∧ (machine answers).Along OwnRows u ts := by
      refine and_congr_right fun _ => ⟨fun all => all u step, fun all v other => ?_⟩
      obtain rfl := Option.some.inj (step.symm.trans other)
      exact all
    by_cases own : s.OwnRows t
    · have still := here.mpr ⟨fresh, own⟩
      rw [along, and_iff_right own]
      exact ih (sound.step step) still rest
    · have stale : u.stale ≠ false := fun still => own (here.mp still).2
      refine iff_of_false ?_ fun all => own (along.mp all).1
      exact stale_of_run rest (Bool.eq_true_of_not_eq_false stale)

/-! ## Functions that hold the mutex -/

theorem insertBin_isSome (answers : Nat → Answer) {kv : MData Datum}
    (fits : kv.entries.length ≤ 256) (table : String) (db : CMysql) :
    ∃ ok, db.insertBin answers kv table = some ok := by
  unfold CMysql.insertBin
  cases prepared : Mysql.insertBin db.mysql_.isSome kv table with
  | refused => exact ⟨_, rfl⟩
  | statement sql bind => exact ⟨_, rfl⟩
  | overrun =>
    unfold Mysql.insertBin at prepared
    split at prepared
    · cases prepared
    · obtain ⟨bind, loop, -⟩ := prepareLoop_bound
        (fun (p : String × String) key => (p.1 ++ "`" ++ key ++ "`,", p.2 ++ "?,")) kv.entries
        ("", "") fits
      simp [loop] at prepared

theorem updateBin_isSome (answers : Nat → Answer) {kv : MData Datum}
    (fits : kv.entries.length ≤ 256) (table filter : String) (db : CMysql) :
    ∃ n, db.updateBin answers kv table filter = some n := by
  unfold CMysql.updateBin
  cases prepared : Mysql.updateBin db.mysql_.isSome kv table filter with
  | refused => exact ⟨_, rfl⟩
  | statement sql bind => exact ⟨_, rfl⟩
  | overrun =>
    unfold Mysql.updateBin at prepared
    split at prepared
    · cases prepared
    · obtain ⟨bind, loop, -⟩ := prepareLoop_bound
        (fun (sql : String) key => sql ++ "`" ++ key ++ "`=?,") kv.entries
        ("update `" ++ table ++ "` set ") fits
      simp [loop] at prepared

/-- Who has the mutex is in the middle of its function, and the rows that it may read are its own;
all others are outside of theirs. -/
structure Excluded (s : Shared θ) (phase : θ → Dao.Phase) : Prop where
  guarded : ∀ t, (s.todo t).Guarded (phase t)
  holder : ∀ t, s.holder = some t ↔ phase t ≠ .outside
  last : ∀ t, phase t = .holding → s.last = some t

omit [DecidableEq θ] in
theorem Excluded.ownRows {phase : θ → Dao.Phase} (excluded : s.Excluded phase) (t : θ) :
    s.OwnRows t := by
  intro next reads _
  have guarded := excluded.guarded t
  rw [reads] at guarded
  exact excluded.last t guarded.1

/-- At the start, no function has begun. -/
def Ready (s : Shared θ) : Prop :=
  s.holder = none ∧ ∀ t, (s.todo t).Guarded .outside

omit [DecidableEq θ] in
theorem Ready.excluded (ready : s.Ready) : s.Excluded fun _ => .outside := by
  refine ⟨ready.2, fun t => ?_, fun t holds => ?_⟩
  · simp [ready.1]
  · cases holds

/-- The phase of a thread that moves is that of what comes next. -/
theorem Excluded.step {phase : θ → Dao.Phase} (excluded : s.Excluded phase)
    (step : s.step answers t = some s') : ∃ phase', s'.Excluded phase' := by
  have guarded := excluded.guarded t
  -- a thread in the middle of its function has the mutex, and so no other is
  have alone {u : θ} (inside : phase t ≠ .outside) (other : u ≠ t) : phase u = .outside := by
    by_contra also
    have mine := (excluded.holder t).mpr inside
    have its := (excluded.holder u).mpr also
    exact other (Option.some.inj (its.symm.trans mine))
  have moved {next : Dao} {p : Dao.Phase} (after : next.Guarded p) (u : θ) :
      (Function.update s.todo t next u).Guarded (Function.update phase t p u) := by
    by_cases same : u = t
    · subst same
      simpa using after
    · rw [Function.update_of_ne same, Function.update_of_ne same]
      exact excluded.guarded u
  cases step_cases answers step with
  | lock todo free =>
    rw [todo] at guarded
    refine ⟨Function.update phase t .locked, moved guarded.2, fun u => ?_, fun u holds => ?_⟩
    · by_cases same : u = t
      · simp [same]
      · have outside : phase u = .outside := by
          simpa [free] using excluded.holder u
        simp [same, outside, Ne.symm same]
    · by_cases same : u = t
      · simp [same] at holds
      · rw [Function.update_of_ne same] at holds
        exact excluded.last u holds
  | unlock todo =>
    rw [todo] at guarded
    refine ⟨Function.update phase t .outside, moved guarded.2, fun u => ?_, fun u holds => ?_⟩
    · by_cases same : u = t
      · simp [same]
      · simp [same, alone guarded.1 same]
    · by_cases same : u = t
      · simp [same] at holds
      · rw [Function.update_of_ne same] at holds
        exact excluded.last u holds
  | getResult todo =>
    rw [todo] at guarded
    refine ⟨Function.update phase t .holding, moved (guarded.2 _), fun u => ?_, fun u holds => ?_⟩
    · have holder := (excluded.holder t).mpr guarded.1
      by_cases same : u = t
      · simp [same, goOn, holder]
      · simp [same, goOn, holder, alone guarded.1 same, Ne.symm same]
    · by_cases same : u = t
      · simp [same]
      · rw [Function.update_of_ne same, alone guarded.1 same] at holds
        cases holds
  | read todo =>
    rw [todo] at guarded
    refine ⟨Function.update phase t .holding, moved guarded.2, fun u => ?_, fun u holds => ?_⟩
    · by_cases same : u = t
      · have holder := (excluded.holder t).mpr (by simp [guarded.1])
        simp [same, goOn, holder]
      · simpa [same, goOn] using excluded.holder u
    · by_cases same : u = t
      · exact same ▸ excluded.last t guarded.1
      · rw [Function.update_of_ne same] at holds
        exact excluded.last u holds
  | call kept todo next =>
    have inside := (next _ guarded).1
    have unmoved : Function.update phase t (phase t) = phase := Function.update_eq_self t phase
    have guarded' := moved (next _ guarded).2
    rw [unmoved] at guarded'
    exact ⟨phase, guarded', excluded.holder, excluded.last⟩

/-- Nobody else goes on while a thread has the mutex. -/
theorem Excluded.waits {phase : θ → Dao.Phase} (excluded : s.Excluded phase) {u : θ}
    (holder : s.holder = some t) (other : u ≠ t) : s.step answers u = none := by
  have outside : phase u = .outside := by
    by_contra inside
    have its := (excluded.holder u).mpr inside
    exact other (Option.some.inj (its.symm.trans holder))
  have guarded := excluded.guarded u
  rw [outside] at guarded
  cases todo : s.todo u <;> rw [todo] at guarded
  case done => simp [Shared.step, todo]
  case lock => simp [Shared.step, todo, holder]
  case insertBin => exact absurd rfl guarded.1.1
  case updateBin => exact absurd rfl guarded.1.1
  case read => cases guarded.1
  all_goals exact absurd rfl guarded.1

/-- Who has the mutex goes on, and if nobody has it, who wants it gets it. -/
theorem Excluded.progress {phase : θ → Dao.Phase} (excluded : s.Excluded phase)
    (unfinished : s.todo t ≠ .done) : ∃ u s', s.step answers u = some s' := by
  cases holder : s.holder with
  | none =>
    have outside : phase t = .outside := by
      simpa [holder] using excluded.holder t
    have guarded := excluded.guarded t
    rw [outside] at guarded
    refine ⟨t, ?_⟩
    cases todo : s.todo t <;> rw [todo] at guarded
    case done => exact absurd todo unfinished
    case lock => simp [Shared.step, todo, holder]
    case insertBin => exact absurd rfl guarded.1.1
    case updateBin => exact absurd rfl guarded.1.1
    case read => cases guarded.1
    all_goals exact absurd rfl guarded.1
  | some u =>
    have inside := (excluded.holder u).mp holder
    have guarded := excluded.guarded u
    refine ⟨u, ?_⟩
    cases todo : s.todo u <;> rw [todo] at guarded
    case done => exact absurd guarded inside
    case lock => exact absurd guarded.1 inside
    case insertBin kv table next =>
      obtain ⟨ok, inserted⟩ := insertBin_isSome answers guarded.1.2 table s.db
      simp [Shared.step, todo, inserted]
    case updateBin kv table filter next =>
      obtain ⟨n, updated⟩ := updateBin_isSome answers guarded.1.2 table filter s.db
      simp [Shared.step, todo, updated]
    all_goals simp [Shared.step, todo]

theorem Ready.excluded_run {ts : List θ} (ready : s.Ready)
    (run : (machine answers).run s ts = some s') : ∃ phase, s'.Excluded phase := by
  have pres : (machine answers).Preserves (fun _ _ => True)
      fun s : Shared θ => ∃ phase, s.Excluded phase :=
    fun s t s' ⟨_, excluded⟩ _ step => excluded.step step
  exact (machine answers).run_invariant_always pres ⟨_, ready.excluded⟩ run

/-- Functions that do everything under the mutex never read a freed row. -/
theorem Ready.stale_eq {ts : List θ} (ready : s.Ready) (sound : s.Sound) (fresh : s.stale = false)
    (run : (machine answers).run s ts = some s') : s'.stale = false := by
  have pres : (machine answers).Preserves (fun _ _ => True)
      fun s : Shared θ => ∃ phase, s.Excluded phase :=
    fun s t s' ⟨_, excluded⟩ _ step => excluded.step step
  have along := (machine answers).along_of_invariant (P := OwnRows) pres
    (fun s t ⟨_, excluded⟩ _ => excluded.ownRows t) ⟨_, ready.excluded⟩
    ((machine answers).along_of_forall (fun _ _ => trivial) s ts)
  exact (sound.stale_iff fresh run).mpr along

end Shared

end MicroserviceFramework.Mysql
