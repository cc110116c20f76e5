import Mathlib.Data.List.Basic

/-!
# Labelled machines and their runs

A machine steps by a partial function of its state and a label. Everything the environment
decides (which party moves, how a library call comes out, what arrives) is in the label, so a
run is a list of labels and can be evaluated. `Along` speaks about every step of a run; the
rules below turn facts about one step into facts about runs.

`transduce` is the same idea for total steps with output: an object fed one input at a time.
-/

namespace MicroserviceFramework.Library

/-- A state type `σ` moved by labels `ι`; `none` says that the label is not enabled. -/
structure Machine (σ ι : Type*) where
  step : σ → ι → Option σ

namespace Machine

variable {σ ι : Type*} (M : Machine σ ι) {P Q C : σ → ι → Prop} {I : σ → Prop}

def run : σ → List ι → Option σ
  | s, [] => some s
  | s, l :: ls => (M.step s l).bind fun t => run t ls

/-- `P` holds of the state and the label before every step of the run. -/
def Along (P : σ → ι → Prop) : σ → List ι → Prop
  | _, [] => True
  | s, l :: ls => P s l ∧ ∀ t, M.step s l = some t → Along P t ls

instance Along.decidable [∀ s l, Decidable (P s l)] :
    ∀ (s : σ) (ls : List ι), Decidable (M.Along P s ls)
  | _, [] => .isTrue trivial
  | s, l :: ls =>
    match step : M.step s l with
    | none => decidable_of_iff (P s l)
        ⟨fun holds => ⟨holds, fun t enabled => by simp [step] at enabled⟩, fun along => along.1⟩
    | some t =>
      have := Along.decidable t ls
      decidable_of_iff (P s l ∧ M.Along P t ls)
        ⟨fun ⟨holds, rest⟩ => ⟨holds, fun u enabled => Option.some.inj (step ▸ enabled) ▸ rest⟩,
          fun along => ⟨along.1, along.2 t step⟩⟩

/-- Every step allowed by `C` keeps the invariant `I`. -/
def Preserves (C : σ → ι → Prop) (I : σ → Prop) : Prop :=
  ∀ s l t, I s → C s l → M.step s l = some t → I t

/-- An invariant kept by the steps that `C` allows holds wherever a run of such steps ends. -/
theorem run_invariant (pres : M.Preserves C I) {ls : List ι} {s t : σ} (start : I s)
    (along : M.Along C s ls) (run : M.run s ls = some t) : I t := by
  induction ls generalizing s with
  | nil => cases run; exact start
  | cons l ls ih =>
    obtain ⟨u, step, rest⟩ := Option.bind_eq_some_iff.mp run
    exact ih (pres s l u start along.1 step) (along.2 u step) rest

theorem along_of_forall (all : ∀ s l, P s l) (s : σ) (ls : List ι) : M.Along P s ls := by
  induction ls generalizing s with
  | nil => trivial
  | cons l ls ih => exact ⟨all s l, fun t _ => ih t⟩

/-- What every step keeps, the steps that `C` allows keep. -/
theorem Preserves.weaken (pres : M.Preserves (fun _ _ => True) I) : M.Preserves C I :=
  fun s l t inv _ step => pres s l t inv trivial step

/-- An invariant that every step keeps holds wherever a run ends. -/
theorem run_invariant_always (pres : M.Preserves (fun _ _ => True) I) {ls : List ι} {s t : σ}
    (start : I s) (run : M.run s ls = some t) : I t :=
  M.run_invariant pres start (M.along_of_forall (fun _ _ => trivial) s ls) run

/-- A measure that some steps lower and no other step raises bounds the number of such steps. -/
theorem run_countP_le (measure : σ → Nat) (lowers : ι → Bool)
    (step_lt : ∀ s l t, lowers l → M.step s l = some t → measure t < measure s)
    (step_le : ∀ s l t, M.step s l = some t → measure t ≤ measure s) {ls : List ι} {s t : σ}
    (run : M.run s ls = some t) : ls.countP lowers + measure t ≤ measure s := by
  induction ls generalizing s with
  | nil =>
    obtain rfl := Option.some.inj run
    exact Nat.le_of_eq (Nat.zero_add _)
  | cons l ls ih =>
    obtain ⟨u, step, rest⟩ := Option.bind_eq_some_iff.mp run
    have later := ih rest
    by_cases low : lowers l
    · have here := step_lt s l u low step
      rw [List.countP_cons_of_pos low]
      omega
    · have here := step_le s l u step
      rw [List.countP_cons_of_neg low]
      omega

/-- A condition on the labels alone. -/
theorem along_of_mem {P : ι → Prop} {ls : List ι} (all : ∀ l ∈ ls, P l) (s : σ) :
    M.Along (fun _ l => P l) s ls := by
  induction ls generalizing s with
  | nil => trivial
  | cons l ls ih =>
    exact ⟨all l List.mem_cons_self, fun t _ => ih (fun k mem => all k (List.mem_cons_of_mem _ mem)) t⟩

theorem Along.imp {s : σ} {ls : List ι} (imp : ∀ s l, P s l → Q s l) (along : M.Along P s ls) :
    M.Along Q s ls := by
  induction ls generalizing s with
  | nil => trivial
  | cons l ls ih => exact ⟨imp s l along.1, fun t step => ih (along.2 t step)⟩

/-- The last step of a run, apart from those before. -/
theorem along_concat {s : σ} {ls : List ι} {l : ι} :
    M.Along P s (ls ++ [l]) ↔ M.Along P s ls ∧ ∀ t, M.run s ls = some t → P t l := by
  induction ls generalizing s with
  | nil =>
    constructor
    · intro along
      refine ⟨trivial, fun t run => ?_⟩
      obtain rfl := Option.some.inj run
      exact along.1
    · rintro ⟨-, last⟩
      exact ⟨last s rfl, fun _ _ => trivial⟩
  | cons k ls ih =>
    constructor
    · rintro ⟨here, rest⟩
      refine ⟨⟨here, fun u step => (ih.mp (rest u step)).1⟩, fun t run => ?_⟩
      obtain ⟨u, step, run⟩ := Option.bind_eq_some_iff.mp run
      exact (ih.mp (rest u step)).2 t run
    · rintro ⟨⟨here, rest⟩, last⟩
      refine ⟨here, fun u step => ih.mpr ⟨rest u step, fun t run => last t ?_⟩⟩
      exact Option.bind_eq_some_iff.mpr ⟨u, step, run⟩

/-- The condition holds where the last step of the run is made. -/
theorem along_last {s t : σ} {ls : List ι} {l : ι} (along : M.Along P s (ls ++ [l]))
    (run : M.run s ls = some t) : P t l :=
  (M.along_concat.mp along).2 t run

/-- What the invariant and a condition on the steps give for one step, they give along the run. -/
theorem along_of_invariant (pres : M.Preserves C I) (holds : ∀ s l, I s → C s l → P s l) {s : σ}
    {ls : List ι} (start : I s) (along : M.Along C s ls) : M.Along P s ls := by
  induction ls generalizing s with
  | nil => trivial
  | cons l ls ih =>
    refine ⟨holds s l start along.1, fun t step => ?_⟩
    exact ih (pres s l t start along.1 step) (along.2 t step)

/-- Two step conditions that agree wherever the invariant holds agree along every run, when the
steps that meet them keep the invariant. -/
theorem along_congr_while (pres : M.Preserves P I) (agree : ∀ s l, I s → (P s l ↔ Q s l)) {s : σ}
    (start : I s) (ls : List ι) : M.Along P s ls ↔ M.Along Q s ls := by
  induction ls generalizing s with
  | nil => exact Iff.rfl
  | cons l ls ih =>
    constructor
    · rintro ⟨here, rest⟩
      exact ⟨(agree s l start).mp here,
        fun t step => (ih (pres s l t start here step)).mp (rest t step)⟩
    · rintro ⟨here, rest⟩
      have here' := (agree s l start).mpr here
      exact ⟨here', fun t step => (ih (pres s l t start here' step)).mpr (rest t step)⟩

/-- Two step conditions that agree wherever the invariant holds agree along every run. -/
theorem along_congr (pres : M.Preserves (fun _ _ => True) I)
    (agree : ∀ s l, I s → (P s l ↔ Q s l)) {s : σ} (start : I s) (ls : List ι) :
    M.Along P s ls ↔ M.Along Q s ls :=
  M.along_congr_while pres.weaken agree start ls

theorem run_append {s t : σ} {ls ks : List ι} (run : M.run s ls = some t) :
    M.run s (ls ++ ks) = M.run t ks := by
  induction ls generalizing s with
  | nil =>
    obtain rfl := Option.some.inj run
    rfl
  | cons l ls ih =>
    obtain ⟨u, step, rest⟩ := Option.bind_eq_some_iff.mp run
    rw [List.cons_append, Machine.run, step, Option.bind_some, ih rest]

section Simulation

variable {τ κ : Type*} (N : Machine τ κ) {R : σ → τ → Prop}

/-- Where every step that `C` allows is matched by a run of another machine, every run of such steps
is. -/
theorem run_simulated (match_step : ∀ s l s' t, R s t → C s l → M.step s l = some s' →
      ∃ ks t', N.run t ks = some t' ∧ R s' t')
    {ls : List ι} {s s' : σ} {t : τ} (start : R s t) (along : M.Along C s ls)
    (run : M.run s ls = some s') : ∃ ks t', N.run t ks = some t' ∧ R s' t' := by
  induction ls generalizing s t with
  | nil =>
    obtain rfl := Option.some.inj run
    exact ⟨[], t, rfl, start⟩
  | cons l ls ih =>
    obtain ⟨u, step, rest⟩ := Option.bind_eq_some_iff.mp run
    obtain ⟨here, v, first, related⟩ := match_step s l u t start along.1 step
    obtain ⟨later, w, second, final⟩ := ih related (along.2 u step) rest
    exact ⟨here ++ later, w, (N.run_append first).trans second, final⟩

end Simulation

end Machine

section Transducer

variable {σ ι ο : Type*}

/-- Feed the inputs one by one, collecting what each of them puts out. -/
def transduce (f : σ → ι → List ο × σ) : σ → List ι → List ο × σ
  | s, [] => ([], s)
  | s, i :: is => ((f s i).1 ++ (transduce f (f s i).2 is).1, (transduce f (f s i).2 is).2)

theorem transduce_append (f : σ → ι → List ο × σ) (s : σ) (is js : List ι) :
    transduce f s (is ++ js) =
      ((transduce f s is).1 ++ (transduce f (transduce f s is).2 js).1,
        (transduce f (transduce f s is).2 js).2) := by
  induction is generalizing s with
  | nil => rfl
  | cons i is ih => simp only [List.cons_append, transduce, ih, List.append_assoc]

/-- A property of the outputs that one step gives, given an invariant, all of them have. -/
theorem transduce_outputs {f : σ → ι → List ο × σ} {I : σ → Prop} {Q : ο → Prop}
    (step : ∀ s i, I s → (∀ o ∈ (f s i).1, Q o) ∧ I (f s i).2) {s : σ} (start : I s)
    (is : List ι) : (∀ o ∈ (transduce f s is).1, Q o) ∧ I (transduce f s is).2 := by
  induction is generalizing s with
  | nil => simpa [transduce] using start
  | cons i is ih =>
    obtain ⟨here, next⟩ := step s i start
    obtain ⟨later, final⟩ := ih next
    refine ⟨fun o mem => ?_, final⟩
    rcases List.mem_append.mp mem with now | after
    · exact here o now
    · exact later o after

end Transducer

end MicroserviceFramework.Library
