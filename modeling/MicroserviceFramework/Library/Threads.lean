import MicroserviceFramework.Library.Machine
import Mathlib.Logic.Function.Basic

/-!
# Threads that share a state

Each thread has a queue of operations, an operation is a row of atomic calls on a shared state,
and a call decides whether the operation goes on. The scheduler picks a thread for each call.

If no operation starts while another is in progress, the shared state is what the operations
make of it one after the other, in an order that keeps each thread's own (`Threads.serial`). What
is in progress at the end of a run counts as done once its remaining calls are made.
-/

namespace MicroserviceFramework.Library

variable {θ κ ω σ : Type*}

structure Threads (θ κ ω σ : Type*) where
  shared : σ
  /-- The operations a thread has not begun. -/
  queue : θ → List ω
  /-- The calls that are left of the operation a thread is in. -/
  calls : θ → List κ

namespace Threads

/-- The calls of an operation without any other in between. -/
def runCalls (exec : κ → σ → Bool × σ) : List κ → σ → σ
  | [], s => s
  | k :: ks, s => if (exec k s).1 then runCalls exec ks (exec k s).2 else (exec k s).2

/-- The operations one after the other. -/
def runAll (body : ω → List κ) (exec : κ → σ → Bool × σ) (s : σ) (log : List (θ × ω)) : σ :=
  log.foldl (fun s entry => runCalls exec (body entry.2) s) s

variable (body : ω → List κ) (exec : κ → σ → Bool × σ)

theorem runAll_append (s : σ) (log : List (θ × ω)) (t : θ) (op : ω) :
    runAll body exec s (log ++ [(t, op)]) = runCalls exec (body op) (runAll body exec s log) := by
  simp [runAll]

variable [DecidableEq θ]

/-- The operations of one thread. -/
def opsOf (t : θ) (log : List (θ × ω)) : List ω := (log.filter (·.1 = t)).map (·.2)

@[simp] theorem opsOf_append_self (t : θ) (log : List (θ × ω)) (op : ω) :
    opsOf t (log ++ [(t, op)]) = opsOf t log ++ [op] := by
  simp [opsOf]

@[simp] theorem opsOf_append_of_ne {t u : θ} (other : u ≠ t) (log : List (θ × ω)) (op : ω) :
    opsOf u (log ++ [(t, op)]) = opsOf u log := by
  simp [opsOf, other.symm]

/-- A thread that is in no operation begins its next. -/
def load (s : Threads θ κ ω σ) (t : θ) : Threads θ κ ω σ :=
  match s.calls t, s.queue t with
  | [], op :: ops =>
    { s with
      queue := Function.update s.queue t ops
      calls := Function.update s.calls t (body op) }
  | _, _ => s

/-- One call of thread `t`. -/
def step (s : Threads θ κ ω σ) (t : θ) : Option (Threads θ κ ω σ) :=
  match (s.load body t).calls t with
  | [] => none
  | k :: ks =>
    let result := exec k s.shared
    some { s.load body t with
      shared := result.2
      calls := Function.update (s.load body t).calls t (if result.1 then ks else []) }

def machine : Machine (Threads θ κ ω σ) θ := ⟨step body exec⟩

/-- A thread begins an operation only when no thread is in one. -/
def Alone (s : Threads θ κ ω σ) (t : θ) : Prop := s.calls t = [] → ∀ u, s.calls u = []

/-- The state is that of a serial execution: of `log`, whose last operation may still be going on
in thread `t`. -/
structure Serial (s₀ s : Threads θ κ ω σ) (log : List (θ × ω)) (t : θ) : Prop where
  order : ∀ u, opsOf u log ++ s.queue u = s₀.queue u
  others : ∀ u, u ≠ t → s.calls u = []
  state : runCalls exec (s.calls t) s.shared = runAll body exec s₀.shared log

variable {body exec} {s₀ s s' : Threads θ κ ω σ} {log : List (θ × ω)} {t u : θ}

theorem load_of_busy (busy : s.calls t ≠ []) : s.load body t = s := by
  unfold load
  split
  next free _ => exact absurd free busy
  next => rfl

theorem load_of_next {op : ω} {ops : List ω} (free : s.calls t = []) (next : s.queue t = op :: ops) :
    s.load body t =
      { s with
        queue := Function.update s.queue t ops
        calls := Function.update s.calls t (body op) } := by
  simp only [load, free, next]

theorem load_of_done (free : s.calls t = []) (done : s.queue t = []) : s.load body t = s := by
  simp only [load, free, done]

@[simp] theorem load_shared : (s.load body t).shared = s.shared := by
  unfold load
  split <;> rfl

/-- An operation that begins is the last of the serial order. -/
theorem Serial.load (serial : Serial body exec s₀ s log u) (alone : s.Alone t)
    (enabled : (s.load body t).calls t ≠ []) :
    ∃ log', Serial body exec s₀ (s.load body t) log' t := by
  by_cases free : s.calls t = []
  · have idle := alone free
    cases next : s.queue t with
    | nil => rw [load_of_done free next] at enabled; exact absurd free enabled
    | cons op ops =>
      rw [load_of_next free next]
      refine ⟨log ++ [(t, op)], ⟨fun v => ?_, fun v other => ?_, ?_⟩⟩
      · have order := serial.order v
        by_cases same : v = t
        · subst same
          simpa [next] using order
        · simpa [same] using order
      · simpa [other] using idle v
      · have state := serial.state
        rw [idle u] at state
        rw [runAll_append, ← state]
        simp [runCalls]
  · have mine : t = u := by
      by_contra other
      exact free (serial.others t other)
    subst mine
    rw [load_of_busy free]
    exact ⟨log, serial⟩

/-- A call of the operation in progress brings it nearer to its end. -/
theorem Serial.call {k : κ} {ks : List κ} (serial : Serial body exec s₀ s log t)
    (calls : s.calls t = k :: ks) :
    Serial body exec s₀
      { s with
        shared := (exec k s.shared).2
        calls := Function.update s.calls t (if (exec k s.shared).1 then ks else []) } log t where
  order := serial.order
  others u other := by simpa [other] using serial.others u other
  state := by
    rw [← serial.state, calls]
    simp only [Function.update_self, runCalls]
    split <;> rfl

theorem Serial.step (serial : Serial body exec s₀ s log u) (alone : s.Alone t)
    (step : s.step body exec t = some s') : ∃ log', Serial body exec s₀ s' log' t := by
  unfold Threads.step at step
  split at step
  · simp at step
  next k ks calls =>
    obtain ⟨log', loaded⟩ := serial.load alone (by simp [calls])
    obtain rfl := Option.some.inj step
    have done := loaded.call calls
    rw [load_shared] at done
    exact ⟨log', done⟩

/-- What every call keeps, every run keeps. -/
theorem run_shared {I : σ → Prop} (keeps : ∀ k s, I s → I (exec k s).2) (start : I s₀.shared)
    {ts : List θ} (run : (machine body exec).run s₀ ts = some s) : I s.shared := by
  refine (machine body exec).run_invariant_always (I := fun s => I s.shared)
    (fun s t s' holds _ step => ?_) start run
  simp only [machine, Threads.step] at step
  split at step
  · simp at step
  next k ks calls =>
    obtain rfl := Option.some.inj step
    exact keeps k s.shared holds

/-- Without overlapping operations a run is a serial one. -/
theorem serial {ts : List θ} (start : ∀ u, s₀.calls u = [])
    (alone : (machine body exec).Along Alone s₀ ts) (run : (machine body exec).run s₀ ts = some s)
    (t : θ) : ∃ log u, Serial body exec s₀ s log u := by
  refine (machine body exec).run_invariant (I := fun s => ∃ log u, Serial body exec s₀ s log u)
    ?_ ⟨[], t, ⟨fun u => by simp [opsOf], fun u _ => start u, by simp [start, runCalls, runAll]⟩⟩
    alone run
  rintro s t s' ⟨log, u, serial⟩ alone step
  obtain ⟨log', done⟩ := serial.step alone step
  exact ⟨log', t, done⟩

end Threads

end MicroserviceFramework.Library
