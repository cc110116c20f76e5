import MicroserviceFramework.Platform.CThreadPool
import Mathlib.Data.List.Nodup
import Mathlib.Data.Nat.ModEq

/-!
# Every task is started once

For each thread, the tasks in its list are as many as the bytes that wake it up, but for one that
is pushed before its byte is written. So no `notify` finds the list empty, and a thread that has
nothing to read has no task left. Which thread a task goes to depends on its number only.
-/

namespace MicroserviceFramework.Platform

open Library

variable {τ : Type*}

namespace CThread

variable {t t' : CThread τ}

/-- A thread goes on: no task is lost or moved, and each that is taken has taken a byte. -/
structure Moves (t t' : CThread τ) : Prop where
  jobs : t'.jobs = t.jobs
  balance : t'.tasks.length + t.wakeUps = t.tasks.length + t'.wakeUps

theorem Moves.trans {t'' : CThread τ} (first : t.Moves t') (second : t'.Moves t'') :
    t.Moves t'' where
  jobs := second.jobs.trans first.jobs
  balance := by
    have one := first.balance
    have two := second.balance
    omega

theorem read_eq_some : t.read = some t' ↔ t.notify = .idle ∧ ∃ unread, t.unread = unread + 1 ∧
    t' = { t with unread := unread, notify := .woken } := by
  unfold read
  split
  next idle waiting =>
    rw [idle, waiting]
    simp [eq_comm]
  next none =>
    constructor
    · intro read
      cases read
    · rintro ⟨idle, unread, waiting, -⟩
      exact (none unread idle waiting).elim

theorem read_moves (read : t.read = some t') : t.Moves t' := by
  obtain ⟨idle, unread, waiting, rfl⟩ := read_eq_some.mp read
  constructor
  · simp [jobs, idle, Notify.job]
  · simp [wakeUps, idle, waiting]

/-- There is a task for the byte that was read, so one is taken. -/
theorem pop_moves (covered : t.wakeUps ≤ t.tasks.length) (pop : t.pop = some t') : t.Moves t' := by
  unfold CThread.pop at pop
  split at pop
  next woken empty =>
    rw [empty, wakeUps, woken] at covered
    cases covered
  next job tasks woken first =>
    obtain rfl := Option.some.inj pop
    constructor
    · simp [jobs, woken, first, Notify.job]
    · simp [wakeUps, woken, first]
      omega
  · cases pop

theorem init_moves (init : t.init = some t') : t.Moves t' := by
  unfold CThread.init at init
  split at init
  next job taken =>
    obtain rfl := Option.some.inj init
    constructor
    · simp [jobs, taken, Notify.job]
    · simp [wakeUps, taken]
  · cases init

theorem notifyCb_moves (covered : t.wakeUps ≤ t.tasks.length) (called : t.notifyCb = some t') :
    t.Moves t' := by
  obtain ⟨t₁, read, called⟩ := Option.bind_eq_some_iff.mp called
  obtain ⟨t₂, pop, called⟩ := Option.bind_eq_some_iff.mp called
  have one := read_moves read
  have still : t₁.wakeUps ≤ t₁.tasks.length := by
    have same := one.balance
    omega
  have two := pop_moves still pop
  split at called
  · exact one.trans (two.trans (init_moves called))
  · obtain rfl := Option.some.inj called
    exact one.trans two

theorem wakeUps_addTask (job : Job τ) (t : CThread τ) : (t.addTask job).wakeUps = t.wakeUps := rfl

theorem wakeUps_activate (t : CThread τ) : t.activate.wakeUps = t.wakeUps + 1 := by
  unfold wakeUps activate
  dsimp only
  split <;> rfl

/-- A call that runs to its end leaves the thread idle. -/
theorem notifyCb_idle (called : t.notifyCb = some t') : t'.notify = .idle := by
  obtain ⟨t₁, read, called⟩ := Option.bind_eq_some_iff.mp called
  obtain ⟨t₂, pop, called⟩ := Option.bind_eq_some_iff.mp called
  unfold CThread.pop at pop
  split at pop
  · obtain rfl := Option.some.inj pop
    obtain rfl := Option.some.inj called
    rfl
  · obtain rfl := Option.some.inj pop
    obtain rfl := Option.some.inj called
    rfl
  · cases pop

end CThread

/-- Of `n` numbers in a row no two have the same rest. -/
theorem nodup_map_mod (n len k : Nat) :
    ((((List.range len).drop k).take n).map (· % n)).Nodup := by
  have row : ∀ x ∈ ((List.range len).drop k).take n, k ≤ x ∧ x < k + n := by
    intro x mem
    obtain ⟨i, lt, rfl⟩ := List.mem_iff_getElem.mp mem
    rw [List.length_take] at lt
    simp only [List.getElem_take, List.getElem_drop, List.getElem_range]
    omega
  refine List.Nodup.map_on (fun x x_mem y y_mem same => ?_) ?_
  · obtain ⟨x_ge, x_lt⟩ := row x x_mem
    obtain ⟨y_ge, y_lt⟩ := row y y_mem
    -- one of them is the smaller, and `n` divides what lies between
    rcases Nat.le_total x y with le | le
    · have divides := (Nat.modEq_iff_dvd' le).mp same
      have none := Nat.eq_zero_of_dvd_of_lt divides (by omega)
      omega
    · have divides := (Nat.modEq_iff_dvd' le).mp same.symm
      have none := Nat.eq_zero_of_dvd_of_lt divides (by omega)
      omega
  · exact (List.nodup_range.sublist (List.drop_sublist ..)).sublist (List.take_sublist ..)

namespace CCThreadPool

/-- What holds of the pool after any run. -/
structure Inv (s : CCThreadPool τ) : Prop where
  positive : 0 < s.threadNums
  numbers : s.dispatched.map (·.number) = List.range s.dispatched.length
  bases : s.dispatched.map (·.base) = (List.range s.dispatched.length).map (· % s.threadNums)
  last : (s.lastThread + 1) % s.threadNums = (s.dispatched.length : Int) % s.threadNums
  jobs : ∀ w, (s.threads w).jobs = s.dispatched.filter (·.base = w)
  balance : ∀ w, (s.threads w).tasks.length =
    (s.threads w).wakeUps + if s.activating = some w then 1 else 0

variable {s s' : CCThreadPool τ}

/-- The tasks of thread `w` are those dispatched to it. -/
def Listed (dispatched : List (Job τ)) (w : Nat) (t : CThread τ) : Prop :=
  t.jobs = dispatched.filter (·.base = w)

/-- Thread `w` has a task for each byte that wakes it up, and one for the byte that `activate` is
going to write. -/
def Balanced (activating : Option Nat) (w : Nat) (t : CThread τ) : Prop :=
  t.tasks.length = t.wakeUps + if activating = some w then 1 else 0

/-- What holds of the thread that is set, and of the others before, holds of all after. -/
theorem forall_setThread {P : Nat → CThread τ → Prop} {w : Nat} {t : CThread τ} (own : P w t)
    (others : ∀ v, v ≠ w → P v (s.threads v)) (v : Nat) : P v ((s.setThread w t).threads v) := by
  by_cases same : v = w
  · rw [same, setThread_self]
    exact own
  · rw [setThread_of_ne same]
    exact others v same

/-- A null task is no task. Any other goes to the next thread, once the last dispatch is over. -/
theorem dispatch_eq_some {task : Option τ} (step : s.dispatch task = some s') :
    s.activating = none ∧ (task = none ∧ s' = s ∨ ∃ x, task = some x ∧
      let tid := (s.lastThread + 1) % s.threadNums
      let job : Job τ := { task := x, number := s.dispatched.length, base := tid.toNat }
      s' = { s.setThread tid.toNat ((s.threads tid.toNat).addTask job) with
        lastThread := tid
        activating := some tid.toNat
        dispatched := s.dispatched ++ [job] }) := by
  unfold CCThreadPool.dispatch at step
  split at step
  · cases step
  next free => exact ⟨free, .inl ⟨rfl, (Option.some.inj step).symm⟩⟩
  next task free => exact ⟨free, .inr ⟨task, rfl, (Option.some.inj step).symm⟩⟩

theorem Inv.start {n : Nat} (positive : 0 < n) : ({ threadNums := n } : CCThreadPool τ).Inv where
  positive := positive
  numbers := rfl
  bases := rfl
  last := by simp
  jobs w := rfl
  balance w := rfl

theorem Inv.covered (inv : s.Inv) (w : Nat) :
    (s.threads w).wakeUps ≤ (s.threads w).tasks.length := by
  rw [inv.balance w]
  exact Nat.le_add_right ..

theorem Inv.work (inv : s.Inv) {w : Nat} {t : CThread τ} (moves : (s.threads w).Moves t) :
    (s.setThread w t).Inv := by
  have listed : Listed s.dispatched w t := moves.jobs.trans (inv.jobs w)
  have balanced : Balanced s.activating w t := by
    have before := inv.balance w
    have moved := moves.balance
    unfold Balanced
    generalize (if s.activating = some w then 1 else 0) = pending at before ⊢
    omega
  exact ⟨inv.positive, inv.numbers, inv.bases, inv.last,
    forall_setThread listed fun v _ => inv.jobs v,
    forall_setThread balanced fun v _ => inv.balance v⟩

theorem Inv.activate (inv : s.Inv) (step : s.activate = some s') : s'.Inv := by
  obtain ⟨tid, activating, rfl⟩ := Option.map_eq_some_iff.mp step
  have balance := inv.balance
  simp only [activating] at balance
  have balanced : Balanced none tid (s.threads tid).activate := by
    have before := balance tid
    rw [if_pos rfl] at before
    exact before.trans (CThread.wakeUps_activate _).symm
  refine ⟨inv.positive, inv.numbers, inv.bases, inv.last, ?_, ?_⟩
  · exact forall_setThread (P := Listed s.dispatched) (inv.jobs tid) fun v _ => inv.jobs v
  · refine forall_setThread (P := Balanced none) balanced fun v other => ?_
    simpa [Balanced, Ne.symm other] using balance v

/-- The thread of the next task is that of its number. -/
theorem Inv.tid (inv : s.Inv) :
    (s.lastThread + 1) % s.threadNums = ((s.dispatched.length % s.threadNums : Nat) : Int) := by
  rw [inv.last]
  exact (Int.natCast_emod ..).symm

theorem Inv.dispatch (inv : s.Inv) {task : Option τ} (step : s.dispatch task = some s') :
    s'.Inv := by
  obtain ⟨free, ⟨-, rfl⟩ | ⟨task, -, step⟩⟩ := dispatch_eq_some step
  · exact inv
  · rw [inv.tid] at step
    dsimp only at step
    rw [Int.toNat_natCast] at step
    subst step
    have balance := inv.balance
    simp only [free] at balance
    refine ⟨inv.positive, ?_, ?_, ?_, ?_, ?_⟩
    · simp [inv.numbers, List.range_succ]
    · simp [inv.bases, List.range_succ, setThread]
    · simp [setThread]
    · refine forall_setThread (P := Listed (s.dispatched ++ [_])) ?_ fun v other => ?_
      · rw [Listed, List.filter_append, ← inv.jobs]
        simp [CThread.jobs, CThread.addTask]
      · rw [Listed, List.filter_append, ← inv.jobs]
        simp [Ne.symm other]
    · refine forall_setThread (P := Balanced (some _)) ?_ fun v other => ?_
      · rw [Balanced, CThread.wakeUps_addTask]
        simpa [CThread.addTask] using balance _
      · simpa [Balanced, Ne.symm other] using balance v

theorem machine_preserves_inv : (machine (τ := τ)).Preserves (fun _ _ => True) Inv := by
  intro s event s' inv _ step
  cases event with
  | dispatch task => exact inv.dispatch step
  | activate => exact inv.activate step
  | read w =>
    obtain ⟨t, read, rfl⟩ := Option.map_eq_some_iff.mp step
    exact inv.work (CThread.read_moves read)
  | pop w =>
    obtain ⟨t, pop, rfl⟩ := Option.map_eq_some_iff.mp step
    exact inv.work (CThread.pop_moves (inv.covered w) pop)
  | init w =>
    obtain ⟨t, init, rfl⟩ := Option.map_eq_some_iff.mp step
    exact inv.work (CThread.init_moves init)
  | notifyCb w =>
    obtain ⟨t, called, rfl⟩ := Option.map_eq_some_iff.mp step
    exact inv.work (CThread.notifyCb_moves (inv.covered w) called)

/-! ## What follows for the tasks -/

/-- The task of a dispatch, if it is not null. -/
def Event.task : Event τ → Option τ
  | .dispatch task => task
  | _ => none

/-- The event is no part of a call of `notify`. -/
def Event.Whole : Event τ → Prop
  | .read _ | .pop _ | .init _ => False
  | .dispatch _ | .activate | .notifyCb _ => True

/-- The numbers of the tasks that the thread has initialised. -/
def started (s : CCThreadPool τ) (w : Nat) : List Nat := (s.threads w).inits.map (·.number)

/-- No task is initialised twice or by another thread than that chosen for it, each thread keeps
to the order of the dispatches, and as many dispatches in a row as there are threads go to
different ones. -/
structure InTurn (s : CCThreadPool τ) : Prop where
  chosen : ∀ k job, s.dispatched[k]? = some job → job.number = k ∧ job.base = k % s.threadNums
  spread : ∀ k, (((s.dispatched.drop k).take s.threadNums).map (·.base)).Nodup
  inOrder : ∀ w, (s.threads w).inits <+: s.dispatched.filter (·.base = w)
  once : ∀ w, (s.started w).Nodup
  apart : ∀ v w, v ≠ w → (s.started v).Disjoint (s.started w)

theorem Inv.chosen (inv : s.Inv) {k : Nat} {job : Job τ} (there : s.dispatched[k]? = some job) :
    job.number = k ∧ job.base = k % s.threadNums := by
  have lt := (List.getElem?_eq_some_iff.mp there).1
  have number := congrArg (·[k]?) inv.numbers
  have base := congrArg (·[k]?) inv.bases
  simp only [List.getElem?_map, there, Option.map_some, List.getElem?_range lt,
    Option.some.injEq] at number base
  exact ⟨number, base⟩

theorem Inv.inOrder (inv : s.Inv) (w : Nat) :
    (s.threads w).inits <+: s.dispatched.filter (·.base = w) := by
  rw [← inv.jobs w, CThread.jobs, List.append_assoc]
  exact List.prefix_append ..

theorem Inv.inTurn (inv : s.Inv) : s.InTurn where
  chosen k job there := inv.chosen there
  spread k := by
    rw [List.map_take, List.map_drop, inv.bases, ← List.map_drop, ← List.map_take]
    exact nodup_map_mod ..
  inOrder := inv.inOrder
  once w := by
    have all : (s.dispatched.map (·.number)).Nodup := inv.numbers ▸ List.nodup_range
    exact all.sublist (((inv.inOrder w).sublist.trans List.filter_sublist).map _)
  apart v w other := by
    intro k k_v k_w
    obtain ⟨job, mem, rfl⟩ := List.mem_map.mp k_v
    obtain ⟨job', mem', same⟩ := List.mem_map.mp k_w
    have own := List.mem_filter.mp ((inv.inOrder v).subset mem)
    have own' := List.mem_filter.mp ((inv.inOrder w).subset mem')
    obtain ⟨i, at_i⟩ := List.mem_iff_getElem?.mp own.1
    obtain ⟨j, at_j⟩ := List.mem_iff_getElem?.mp own'.1
    have first := inv.chosen at_i
    have second := inv.chosen at_j
    have bases : job.base = job'.base := by rw [first.2, second.2, ← first.1, ← second.1, same]
    exact other (((of_decide_eq_true own.2).symm.trans bases).trans (of_decide_eq_true own'.2))

/-- Without a byte to read, a dispatch under way or a call of `notify` under way, nothing is left
to be done. -/
theorem Inv.allStarted (inv : s.Inv) (unread : ∀ w, (s.threads w).unread = 0)
    (idle : ∀ w, (s.threads w).notify = .idle) (between : s.activating = none) :
    ∀ job ∈ s.dispatched, job ∈ (s.threads job.base).inits := by
  intro job mem
  have balance := inv.balance job.base
  rw [between, CThread.wakeUps, idle job.base, unread job.base] at balance
  have listed : job ∈ (s.threads job.base).jobs := by
    rw [inv.jobs]
    exact List.mem_filter.mpr ⟨mem, decide_eq_true rfl⟩
  have empty := List.length_eq_zero_iff.mp balance
  simpa [CThread.jobs, idle job.base, Notify.job, empty] using listed

/-! ## Runs -/

theorem machine_preserves_threadNums (n : Nat) :
    (machine (τ := τ)).Preserves (fun _ _ => True) (·.threadNums = n) := by
  intro s event s' same _ step
  cases event with
  | dispatch task =>
    obtain ⟨-, ⟨-, rfl⟩ | ⟨task, -, rfl⟩⟩ := dispatch_eq_some step
    · exact same
    · exact same
  | activate =>
    obtain ⟨tid, -, rfl⟩ := Option.map_eq_some_iff.mp step
    exact same
  | _ =>
    obtain ⟨t, -, rfl⟩ := Option.map_eq_some_iff.mp step
    exact same

/-- The list of dispatches is that of the calls with a task. -/
theorem dispatched_run {events : List (Event τ)} (run : machine.run s events = some s') :
    s'.dispatched.map (·.task) = s.dispatched.map (·.task) ++ events.filterMap (·.task) := by
  induction events generalizing s with
  | nil =>
    obtain rfl := Option.some.inj run
    simp
  | cons event events ih =>
    obtain ⟨t, step, rest⟩ := Option.bind_eq_some_iff.mp run
    have here : t.dispatched.map (·.task) = s.dispatched.map (·.task) ++ event.task.toList := by
      cases event with
      | dispatch task =>
        obtain ⟨-, ⟨rfl, rfl⟩ | ⟨task, rfl, rfl⟩⟩ := dispatch_eq_some step
        · simp [Event.task]
        · simp [Event.task]
      | activate =>
        obtain ⟨tid, -, rfl⟩ := Option.map_eq_some_iff.mp step
        simp [Event.task, setThread]
      | _ =>
        obtain ⟨u, -, rfl⟩ := Option.map_eq_some_iff.mp step
        simp [Event.task, setThread]
    rw [ih rest, here, List.append_assoc]
    cases task : event.task with
    | none => simp [task]
    | some x => simp [task]

/-- Where every call of `notify` is one step, no thread is in one between the steps. -/
theorem machine_preserves_idle : (machine (τ := τ)).Preserves (fun _ event => event.Whole)
    (fun s => ∀ w, (s.threads w).notify = .idle) := by
  intro s event s' idle whole step
  cases event with
  | read | pop | init => cases whole
  | dispatch task =>
    obtain ⟨-, ⟨-, rfl⟩ | ⟨task, -, rfl⟩⟩ := dispatch_eq_some step
    · exact idle
    · exact forall_setThread (P := fun _ t => t.notify = .idle) (idle _) fun v _ => idle v
  | activate =>
    obtain ⟨tid, -, rfl⟩ := Option.map_eq_some_iff.mp step
    exact forall_setThread (P := fun _ t => t.notify = .idle) (idle tid) fun v _ => idle v
  | notifyCb w =>
    obtain ⟨t, called, rfl⟩ := Option.map_eq_some_iff.mp step
    exact forall_setThread (P := fun _ t => t.notify = .idle) (CThread.notifyCb_idle called)
      fun v _ => idle v

/-- After any run of a pool with some threads the tasks have been started in turn, and when nothing
is under way all of them have been. Where calls of `notify` are taken as one step each, nothing is
under way when no byte is unread and no dispatch is between its two steps. -/
theorem dispatch_exactly_once {n : Nat} (positive : 0 < n) {events : List (Event τ)}
    (run : machine.run { threadNums := n } events = some s) :
    s.threadNums = n ∧ s.dispatched.map (·.task) = events.filterMap (·.task) ∧ s.InTurn ∧
      ((∀ w, (s.threads w).unread = 0) → s.activating = none →
        (∀ w, (s.threads w).notify = .idle) ∨ (∀ event ∈ events, event.Whole) →
        ∀ job ∈ s.dispatched, job ∈ (s.threads job.base).inits) := by
  have inv := machine.run_invariant_always machine_preserves_inv (.start positive) run
  have size := machine.run_invariant_always (machine_preserves_threadNums n) rfl run
  refine ⟨size, by simpa using dispatched_run run, inv.inTurn, fun unread between rest => ?_⟩
  have idle : ∀ w, (s.threads w).notify = .idle := by
    rcases rest with idle | whole
    · exact idle
    · exact machine.run_invariant machine_preserves_idle (fun _ => rfl)
        (machine.along_of_mem whole _) run
  exact inv.allStarted unread idle between

/-- Two threads: the second byte is written when the first task has been taken. -/
def twoTasks : List (Event Nat) :=
  [.dispatch (some 7), .activate, .dispatch (some 8), .read 0, .pop 0, .activate, .init 0,
    .notifyCb 1]

theorem dispatch_exactly_once_two : ∃ s, machine.run { threadNums := 2 } twoTasks = some s ∧
    s.dispatched.map (·.task) = [7, 8] ∧ s.InTurn ∧
    ∀ job ∈ s.dispatched, job ∈ (s.threads job.base).inits := by
  obtain ⟨s, run, between, rest⟩ : ∃ s, machine.run { threadNums := 2 } twoTasks = some s ∧
      s.activating = none ∧ ∀ w, (s.threads w).unread = 0 ∧ (s.threads w).notify = .idle := by
    refine ⟨_, rfl, rfl, fun w => ?_⟩
    rcases w with _ | _ | w <;> exact ⟨rfl, rfl⟩
  obtain ⟨-, tasks, inTurn, all⟩ := dispatch_exactly_once Nat.two_pos run
  exact ⟨s, run, tasks, inTurn, all (fun w => (rest w).1) between (.inl fun w => (rest w).2)⟩

end CCThreadPool

end MicroserviceFramework.Platform
