import MicroserviceFramework.Library.Machine
import Mathlib.Logic.Function.Basic

/-!
# The thread pool

`CCThreadPool::dispatch` gives each task to the next thread in turn: `CThread::addTask` appends it
to the list of the thread and `activate` writes a byte to its pipe. The event loop of the thread
calls `notify` while there is a byte to read, and each call reads one, takes one task from the list
and initialises it. Here each of these is a step, and `notify` as a whole is one too.

Pipes and event bases are set up when the threads start, and the writes succeed.
-/

namespace MicroserviceFramework.Platform

open Library

/-- A task as the pool hands it on. -/
structure Job (τ : Type*) where
  task : τ
  /-- Which dispatch it came with; the code does not count them. -/
  number : Nat
  /-- The thread whose `event_base` it was given. -/
  base : Nat
  deriving DecidableEq

/-- How far a call of `notify` has come. -/
inductive Notify (τ : Type*) where
  | idle
  /-- It has read its byte. -/
  | woken
  /-- It has taken a task from the list. -/
  | taken (job : Job τ)

/-- The task that is taken and not initialised yet. -/
def Notify.job {τ : Type*} : Notify τ → Option (Job τ)
  | .taken job => some job
  | _ => none

structure CThread (τ : Type*) where
  tasks : List (Job τ) := []
  /-- The bytes in the pipe. -/
  unread : Nat := 0
  notify : Notify τ := .idle
  /-- The tasks it has called `init` on. -/
  inits : List (Job τ) := []

namespace CThread

variable {τ : Type*}

def addTask (job : Job τ) (t : CThread τ) : CThread τ := { t with tasks := t.tasks ++ [job] }

def activate (t : CThread τ) : CThread τ := { t with unread := t.unread + 1 }

/-- The event loop calls `notify`, which reads a byte. -/
def read (t : CThread τ) : Option (CThread τ) :=
  match t.notify, t.unread with
  | .idle, unread + 1 => some { t with unread := unread, notify := .woken }
  | _, _ => none

/-- Under the mutex: the first task is taken, and without one `notify` returns. -/
def pop (t : CThread τ) : Option (CThread τ) :=
  match t.notify, t.tasks with
  | .woken, [] => some { t with notify := .idle }
  | .woken, job :: tasks => some { t with tasks := tasks, notify := .taken job }
  | _, _ => none

def init (t : CThread τ) : Option (CThread τ) :=
  match t.notify with
  | .taken job => some { t with notify := .idle, inits := t.inits ++ [job] }
  | _ => none

/-- A call of `notify` from beginning to end. -/
def notifyCb (t : CThread τ) : Option (CThread τ) := do
  let t ← t.read
  let t ← t.pop
  if t.notify.job.isSome then t.init else some t

/-- The tasks that came to the thread, in the order in which it initialises them. -/
def jobs (t : CThread τ) : List (Job τ) := t.inits ++ t.notify.job.toList ++ t.tasks

/-- The byte that `notify` has read stands for the task that it is going to take. -/
def wakeUps (t : CThread τ) : Nat :=
  match t.notify with
  | .woken => t.unread + 1
  | _ => t.unread

end CThread

structure CCThreadPool (τ : Type*) where
  threadNums : Nat
  lastThread : Int := -1
  threads : Nat → CThread τ := fun _ => {}
  /-- The thread of a dispatch that is between `addTask` and `activate`. -/
  activating : Option Nat := none
  /-- What was dispatched so far. -/
  dispatched : List (Job τ) := []

namespace CCThreadPool

variable {τ : Type*}

def setThread (s : CCThreadPool τ) (w : Nat) (t : CThread τ) : CCThreadPool τ :=
  { s with threads := Function.update s.threads w t }

@[simp] theorem setThread_self (s : CCThreadPool τ) (w : Nat) (t : CThread τ) :
    (s.setThread w t).threads w = t :=
  Function.update_self ..

@[simp] theorem setThread_of_ne {w v : Nat} (other : v ≠ w) (s : CCThreadPool τ) (t : CThread τ) :
    (s.setThread w t).threads v = s.threads v :=
  Function.update_of_ne other ..

/-- `dispatch` up to `activate`. There is one thread that dispatches, so it has to be through with
the last task. -/
def dispatch (task : Option τ) (s : CCThreadPool τ) : Option (CCThreadPool τ) :=
  match s.activating, task with
  | some _, _ => none
  | none, none => some s
  | none, some task =>
    let tid := (s.lastThread + 1) % s.threadNums
    let job : Job τ := { task := task, number := s.dispatched.length, base := tid.toNat }
    some { s.setThread tid.toNat ((s.threads tid.toNat).addTask job) with
      lastThread := tid
      activating := some tid.toNat
      dispatched := s.dispatched ++ [job] }

def activate (s : CCThreadPool τ) : Option (CCThreadPool τ) :=
  s.activating.map fun tid =>
    { s.setThread tid (s.threads tid).activate with activating := none }

/-- A thread moves. -/
def work (f : CThread τ → Option (CThread τ)) (w : Nat) (s : CCThreadPool τ) :
    Option (CCThreadPool τ) :=
  (f (s.threads w)).map (s.setThread w)

inductive Event (τ : Type*) where
  | dispatch (task : Option τ)
  | activate
  | read (w : Nat)
  | pop (w : Nat)
  | init (w : Nat)
  | notifyCb (w : Nat)

def step (s : CCThreadPool τ) : Event τ → Option (CCThreadPool τ)
  | .dispatch task => s.dispatch task
  | .activate => s.activate
  | .read w => s.work CThread.read w
  | .pop w => s.work CThread.pop w
  | .init w => s.work CThread.init w
  | .notifyCb w => s.work CThread.notifyCb w

def machine : Machine (CCThreadPool τ) (Event τ) := ⟨step⟩

end CCThreadPool

end MicroserviceFramework.Platform
