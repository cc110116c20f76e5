import MicroserviceFramework.Platform.ClientTask

/-!
# What the connection flags say

`isConnecting_` is true from the constructor on. `connect` sets both flags to what is the case, and
so does the end of a connection, but an `init` without a server address returns before it gets
there. What is left then is an object that waits for an attempt that nobody has started, and every
`autoConnect` waits with it.
-/

namespace MicroserviceFramework.Platform

open Library

namespace CComeTask

/-- An attempt on the current bufferevent is outstanding. -/
def Attempting (t : CComeTask) : Prop := ∃ bev, t.bev = some bev ∧ bev.attempt = true

/-- The flags are as things are. -/
structure Truthful (t : CComeTask) : Prop where
  connected : t.isConnected = true → t.bev.isSome ∧ t.isConnecting = false
  connecting : t.isConnecting = true → t.Attempting

/-- Whatever the flags were, the step sets them to what is the case. -/
def Settles (t : CComeTask) : Event → Prop
  | .init bev _ _ => t.serverIp ≠ "" ∨
      t.isConnecting = false ∧ (t.isConnected = true → bev.bufferevent_new = true)
  | .connect _ | .closeBev => True
  | .autoConnect _ | .autoConnectTimerCb _ => t.Idle
  | .eventCb what => what.ending = true ∨ what.connected = true ∧ t.bev.isSome
  | .setServerIp _ | .setServerPort _ => False

/-- The step does nothing to the flags or to the bufferevent. -/
def Leaves (t : CComeTask) : Event → Prop
  | .init .. | .connect _ | .closeBev => False
  | .autoConnect _ | .autoConnectTimerCb _ => ¬t.Idle
  | .eventCb what => what.ending = false ∧ what.connected = false
  | .setServerIp _ | .setServerPort _ => True

/-- A step of the run settles the flags, and those after it leave them. -/
inductive Settled : CComeTask → List Event → Prop where
  | now {t t' event events} (step : t.step event = some t') (settles : t.Settles event)
      (rest : machine.Along Leaves t' events) : Settled t (event :: events)
  | later {t t' event events} (step : t.step event = some t') (rest : Settled t' events) :
      Settled t (event :: events)

variable {t t' : CComeTask}

/-! ## What a step does to the flags -/

theorem Truthful.of_idle (idle : t.Idle) : t.Truthful := by
  constructor
  · intro connected
    rw [idle.1] at connected
    cases connected
  · intro connecting
    rw [idle.2] at connecting
    cases connecting

theorem prepared_idle (lib : Libevent) (t : CComeTask) : (t.prepared lib).Idle := by
  unfold prepared
  dsimp only
  split
  · constructor
    · rw [initBev_isConnected]
    · rw [initBev_isConnecting]
  · exact ⟨rfl, rfl⟩

theorem attempted_truthful (lib : Libevent) (idle : t.Idle) : (t.attempted lib).2.Truthful := by
  unfold attempted
  split
  · exact .of_idle idle
  · split
    · exact .of_idle idle
    next bev _ _ => exact ⟨fun _ => by simp_all [Idle], fun _ => ⟨_, rfl, rfl⟩⟩

theorem connect_truthful (lib : Libevent) (t : CComeTask) : (t.connect lib).2.Truthful := by
  rw [connect_eq]
  exact attempted_truthful lib (t.prepared_idle lib)

/-- Without an address the bufferevent is a new one, and nothing is tried on it. -/
theorem initBev_truthful_iff (lib : Libevent) (t : CComeTask) : (t.initBev lib).2.Truthful ↔
    t.isConnecting = false ∧ (t.isConnected = true → lib.bufferevent_new = true) := by
  obtain ⟨timerEvent, events, made⟩ := t.initBev_eq lib
  rw [made]
  constructor
  · intro truthful
    have calm : t.isConnecting = false := by
      by_contra connecting
      obtain ⟨bev, new, attempt⟩ := truthful.connecting (Bool.not_eq_false _ ▸ connecting)
      dsimp only at new
      split at new
      · obtain rfl := Option.some.inj new
        cases attempt
      · cases new
    refine ⟨calm, fun connected => ?_⟩
    have there := (truthful.connected connected).1
    by_contra failed
    rw [if_neg failed] at there
    cases there
  · rintro ⟨calm, connected⟩
    constructor
    · intro up
      exact ⟨by simp [connected up], calm⟩
    · intro connecting
      rw [calm] at connecting
      cases connecting

theorem initWith_truthful_iff (bev timer connection : Libevent) (t : CComeTask) :
    (t.initWith bev timer connection).2.Truthful ↔ t.Settles (.init bev timer connection) := by
  unfold initWith
  dsimp only
  rw [initBev_serverIp]
  by_cases addressed : t.serverIp = ""
  · rw [if_pos addressed, initBev_truthful_iff]
    simp [Settles, addressed]
  · rw [if_neg addressed]
    exact ⟨fun _ => .inl addressed, fun _ => connect_truthful ..⟩

theorem autoConnect_truthful_iff (lib : Libevent) (t : CComeTask) :
    (t.autoConnect lib).Truthful ↔ t.Idle ∨ t.Truthful ∧ ¬t.Idle := by
  rw [autoConnect_eq]
  by_cases idle : t.Idle
  · rw [if_pos idle]
    exact ⟨fun _ => .inl idle, fun _ => connect_truthful lib t⟩
  · rw [if_neg idle]
    simp [idle]

theorem eventCb_truthful_iff {what : What} (step : t.eventCb what = some t') :
    t'.Truthful ↔ t.Settles (.eventCb what) ∨ t.Truthful ∧ t.Leaves (.eventCb what) := by
  rcases eventCb_cases step with ⟨ending, rfl⟩ | ⟨ending, rfl⟩
  · exact ⟨fun _ => .inl (.inl ending), fun _ => .of_idle ⟨rfl, rfl⟩⟩
  · unfold reported
    by_cases connected : what.connected = true
    · rw [if_pos connected]
      constructor
      · intro truthful
        have there := (truthful.connected rfl).1
        exact .inl (.inr ⟨connected, by simpa using there⟩)
      · rintro (settles | ⟨-, -, silent⟩)
        · rcases settles with ends | ⟨-, there⟩
          · exact absurd ends (Bool.eq_false_iff.mp ending)
          · exact ⟨fun _ => ⟨by simpa using there, rfl⟩, fun connecting => by cases connecting⟩
        · exact absurd connected (Bool.eq_false_iff.mp silent)
    · rw [if_neg connected]
      simp [Settles, Leaves, ending, connected]

/-- After a step the flags are truthful if it settles them, or leaves them as they were. -/
theorem truthful_step_iff {event : Event} (step : t.step event = some t') :
    t'.Truthful ↔ t.Settles event ∨ t.Truthful ∧ t.Leaves event := by
  cases event with
  | setServerIp ip =>
    obtain rfl := Option.some.inj step
    have same : (t.setServerIp ip).Truthful ↔ t.Truthful :=
      ⟨fun h => ⟨h.connected, h.connecting⟩, fun h => ⟨h.connected, h.connecting⟩⟩
    simp [same, Settles, Leaves]
  | setServerPort port =>
    obtain rfl := Option.some.inj step
    simp [Settles, Leaves]
  | init bev timer connection =>
    obtain rfl := Option.some.inj step
    rw [initWith_truthful_iff]
    simp [Leaves]
  | connect lib =>
    obtain rfl := Option.some.inj step
    exact ⟨fun _ => .inl trivial, fun _ => connect_truthful lib t⟩
  | autoConnect lib =>
    obtain rfl := Option.some.inj step
    exact autoConnect_truthful_iff lib t
  | autoConnectTimerCb lib =>
    obtain rfl := Option.some.inj step
    exact autoConnect_truthful_iff lib t
  | eventCb what => exact eventCb_truthful_iff step
  | closeBev =>
    obtain rfl := eq_closed_of_closeBev step
    exact ⟨fun _ => .inl trivial, fun _ => .of_idle ⟨rfl, rfl⟩⟩

/-! ## Runs -/

/-- At the end of a run the flags are truthful if they have been settled, or were truthful and have
been left. -/
theorem truthful_run_iff {events : List Event} (run : machine.run t events = some t') :
    t'.Truthful ↔ Settled t events ∨ t.Truthful ∧ machine.Along Leaves t events := by
  induction events generalizing t with
  | nil =>
    obtain rfl := Option.some.inj run
    constructor
    · exact fun truthful => .inr ⟨truthful, trivial⟩
    · rintro (⟨⟨⟩⟩ | ⟨truthful, -⟩)
      exact truthful
  | cons event events ih =>
    obtain ⟨u, step, rest⟩ := Option.bind_eq_some_iff.mp run
    have step : t.step event = some u := step
    rw [ih rest, truthful_step_iff step]
    constructor
    · rintro (settled | ⟨settles | ⟨truthful, leaves⟩, left⟩)
      · exact .inl (.later step settled)
      · exact .inl (.now step settles left)
      · exact .inr ⟨truthful, leaves, fun u' step' => Option.some.inj (step.symm.trans step') ▸ left⟩
    · rintro ((⟨step', settles, left⟩ | ⟨step', settled⟩) | ⟨truthful, leaves, left⟩)
      · obtain rfl := Option.some.inj (step.symm.trans step')
        exact .inr ⟨.inl settles, left⟩
      · obtain rfl := Option.some.inj (step.symm.trans step')
        exact .inl settled
      · exact .inr ⟨.inr ⟨truthful, leaves⟩, left u step⟩

/-- Truthful flags do not keep anybody waiting. -/
theorem Truthful.connects (truthful : t.Truthful) (down : t.isConnected = false)
    (still : ¬t.Attempting) (lib : Libevent) :
    t.autoConnect lib = (t.connect lib).2 ∧ t.autoConnectTimerCb lib = (t.connect lib).2 := by
  have idle : t.Idle := ⟨down, Bool.eq_false_iff.mpr fun h => still (truthful.connecting h)⟩
  rw [autoConnectTimerCb_eq, autoConnect_eq, if_pos idle]
  exact ⟨rfl, rfl⟩

/-- A new object starts with an `isConnecting_` that is not true of it. So after any run its flags
are truthful exactly if some step has settled them and no `init` without an address has come in
between; then nobody waits for an attempt that was not started. -/
theorem flags_truthful_iff (closed : t.bev = none) (unused : t.isConnecting = true)
    {events : List Event} (run : machine.run t events = some t') :
    (t'.Truthful ↔ Settled t events) ∧
      (Settled t events → t'.isConnected = false → ¬t'.Attempting → ∀ lib,
        t'.autoConnect lib = (t'.connect lib).2 ∧
          t'.autoConnectTimerCb lib = (t'.connect lib).2) := by
  have start : ¬t.Truthful := by
    intro truthful
    obtain ⟨bev, there, -⟩ := truthful.connecting unused
    rw [closed] at there
    cases there
  have reached : t'.Truthful ↔ Settled t events := by
    rw [truthful_run_iff run]
    simp [start]
  exact ⟨reached, fun settled => (reached.mpr settled).connects⟩

/-- A client that has its address before it is initialised. -/
def addressed : List Event :=
  [.setServerIp "127.0.0.1", .init {} {} {}, .eventCb { connected := true }]

theorem flags_truthful_addressed : ∃ t, machine.run {} addressed = some t ∧ t.Truthful := by
  obtain ⟨t, run⟩ : ∃ t, machine.run {} addressed = some t := ⟨_, rfl⟩
  have settled : Settled {} addressed :=
    .later rfl (.later rfl (.now rfl (Or.inr ⟨rfl, rfl⟩) trivial))
  exact ⟨t, run, (flags_truthful_iff rfl rfl run).1.mpr settled⟩

/-- A client that is initialised before it has its address: it is taken to be connecting, there is
no attempt, and no `autoConnect` starts one, however often it is called. -/
theorem waits_for_nothing : ∃ t, machine.run {}
      [.init {} {} {}, .setServerIp "127.0.0.1", .setServerPort 20011] = some t ∧
    t.isConnected = false ∧ t.isConnecting = true ∧ ¬t.Attempting ∧ ¬t.Truthful ∧
    ∀ libs : List Libevent, machine.run t (libs.map .autoConnect) = some t ∧
      machine.run t (libs.map .autoConnectTimerCb) = some t := by
  have still (bev : Bufferevent) (none : bev.attempt = false) (t : CComeTask)
      (there : t.bev = some bev) : ¬t.Attempting := by
    rintro ⟨bev', there', attempt⟩
    obtain rfl := Option.some.inj (there.symm.trans there')
    rw [none] at attempt
    cases attempt
  refine ⟨_, rfl, rfl, rfl, still {} rfl _ rfl, fun truthful =>
    still {} rfl _ rfl (truthful.connecting rfl), fun libs => ?_⟩
  constructor
  · induction libs with
    | nil => rfl
    | cons lib libs ih => exact ih
  · induction libs with
    | nil => rfl
    | cons lib libs ih => exact ih

end CComeTask

end MicroserviceFramework.Platform
