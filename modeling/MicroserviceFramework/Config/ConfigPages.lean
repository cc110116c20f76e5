import MicroserviceFramework.Config.CConfigHandle
import MicroserviceFramework.Library.Conversation
import MicroserviceFramework.Library.Machine

/-!
# Asking for a page of configurations

`downloadAllConfig` empties `allConfigs`, sends its request and returns what it then finds in
`allConfigs`. Any response fills that, and nothing in a response says which page it is. So a call
can return the page that an earlier one asked for, or what is left of one that could not be parsed.
-/

namespace MicroserviceFramework.Config

open Library Library.Wire Platform

/-- How far the call of `downloadAllConfig` has come. -/
inductive PageCall where
  | returned
  /-- It has emptied `allConfigs`. -/
  | connecting (page pageCount timeoutSec : Int32)
  /-- It has sent its request, and looks for a response so many times more. -/
  | waiting (number left : Nat)
  deriving DecidableEq

structure ConfigPages where
  allConfigs : Option CConfigList := none
  call : PageCall := .returned
  link : Conversation CDownloadAllConfigReq CConfigList := {}

namespace ConfigPages

inductive Event where
  | downloadAllConfig (page pageCount timeoutSec : Int32)
  /-- Whether `autoConnect` succeeds, and whether the request gets to the server. -/
  | autoConnect (connected sent : Bool)
  /-- One turn of the loop. -/
  | look
  /-- The server answers a request; `sent` is whether the response goes out. -/
  | serve (o : Outcome) (dao : ConfigDAO) (sent : Bool)
  /-- The next response arrives; `failed` is what a failed parse leaves of it. -/
  | downloadAllConfigRes (failed : Option CConfigList)

section

variable [Protobuf]

def step (s : ConfigPages) : Event → Option ConfigPages
  | .downloadAllConfig page pageCount timeoutSec =>
    match s.call with
    | .returned =>
      some { s with allConfigs := none, call := .connecting page pageCount timeoutSec }
    | _ => none
  | .autoConnect connected sent =>
    match s.call with
    | .connecting page pageCount timeoutSec =>
      if connected then
        some { s with
          call := .waiting s.link.made.length (timeoutSec * 100).toInt.toNat
          link := s.link.send { page := page, pageCount := pageCount } sent }
      else some { s with call := .returned }
    | _ => none
  | .look =>
    match s.call with
    | .waiting _ 0 => some { s with call := .returned }
    | .waiting number (left + 1) =>
      if s.allConfigs.isSome then some { s with call := .returned }
      else some { s with call := .waiting number left }
    | _ => none
  | .serve o dao sent => do
    let link ← s.link.serve fun req =>
      if sent then (CConfigHandle.downloadAllConfig o (Message.serialize req) dao).map (·.2)
      else none
    some { s with link := link }
  | .downloadAllConfigRes failed => do
    let (res, link) ← s.link.receive
    match failed with
    | none => some { s with allConfigs := some res.2, link := link }
    | some rest => some { s with allConfigs := some rest, link := s.link.lose }

def machine : Machine ConfigPages Event := ⟨step⟩

/-- A response of the server, in some state, to the request. -/
def ResponseTo (req : CDownloadAllConfigReq) (configs : CConfigList) : Prop :=
  ∃ o dao head,
    CConfigHandle.downloadAllConfig o (Message.serialize req) dao = some (head, configs)

/-- A list that the call returns from `allConfigs` is the response to its own request. -/
def OwnPage (s : ConfigPages) : Event → Prop
  | .look => ∀ number left configs, s.call = .waiting number (left + 1) →
      s.allConfigs = some configs → (number, configs) ∈ s.link.arrived ∧
        ∃ req, s.link.made[number]? = some req ∧ ResponseTo req configs
  | _ => True

/-- When the call finds `allConfigs` filled, the response to its own request has arrived and could
be parsed. -/
def Answered (s : ConfigPages) : Event → Prop
  | .look => ∀ number left, s.call = .waiting number (left + 1) → s.allConfigs ≠ none →
      ∃ configs, (number, configs) ∈ s.link.arrived
  | _ => True

structure Inv (s : ConfigPages) : Prop where
  inOrder : s.link.InOrder
  genuine : s.link.Genuine ResponseTo
  /-- The request of the call is the last. -/
  last : ∀ number left, s.call = .waiting number left → number + 1 = s.link.made.length
  /-- Its response stays in `allConfigs`. -/
  kept : ∀ number left configs, s.call = .waiting number left →
    (number, configs) ∈ s.link.arrived → s.allConfigs = some configs

variable {s s' : ConfigPages}

theorem Inv.init : ({} : ConfigPages).Inv where
  inOrder := .init
  genuine := .init
  last _ _ waiting := by cases waiting
  kept _ _ _ waiting _ := by cases waiting

/-- A call that waits for no response. -/
theorem Inv.notWaiting (inv : s.Inv) {call : PageCall} {allConfigs : Option CConfigList}
    (other : ∀ number left, call ≠ .waiting number left) :
    Inv { s with allConfigs := allConfigs, call := call } where
  inOrder := inv.inOrder
  genuine := inv.genuine
  last number left waiting := absurd waiting (other number left)
  kept number left _ waiting _ := absurd waiting (other number left)

theorem Inv.autoConnect (inv : s.Inv) {connected sent : Bool}
    (step : s.step (.autoConnect connected sent) = some s') : s'.Inv := by
  unfold ConfigPages.step at step
  dsimp only at step
  split at step
  · split at step
    · obtain rfl := Option.some.inj step
      refine ⟨inv.inOrder.send _ _, inv.genuine.send _ _, ?_, ?_⟩
      · intro number left waiting
        obtain ⟨rfl, -⟩ := PageCall.waiting.inj waiting
        exact (Conversation.length_made_send ..).symm
      · intro number left configs waiting answered
        obtain ⟨rfl, -⟩ := PageCall.waiting.inj waiting
        -- nobody has answered it yet
        have before := inv.inOrder.answered _ (List.mem_append_left _ answered)
        exact absurd (Nat.lt_of_lt_of_le before inv.inOrder.handled_le) (Nat.lt_irrefl _)
    · obtain rfl := Option.some.inj step
      exact inv.notWaiting (by simp)
  · cases step

theorem Inv.look (inv : s.Inv) (step : s.step .look = some s') : s'.Inv := by
  unfold ConfigPages.step at step
  dsimp only at step
  split at step
  · obtain rfl := Option.some.inj step
    exact inv.notWaiting (by simp)
  next number left waiting =>
    split at step
    · obtain rfl := Option.some.inj step
      exact inv.notWaiting (by simp)
    · obtain rfl := Option.some.inj step
      refine ⟨inv.inOrder, inv.genuine, fun n l same => ?_, fun n l configs same answered => ?_⟩
      · obtain ⟨rfl, -⟩ := PageCall.waiting.inj same
        exact inv.last number _ waiting
      · obtain ⟨rfl, -⟩ := PageCall.waiting.inj same
        exact inv.kept number _ configs waiting answered
  · cases step

theorem Inv.serve (inv : s.Inv) {o : Outcome} {dao : ConfigDAO} {sent : Bool}
    (step : s.step (.serve o dao sent) = some s') : s'.Inv := by
  obtain ⟨link, served, step⟩ := Option.bind_eq_some_iff.mp step
  obtain rfl := Option.some.inj step
  have ordered := inv.inOrder.serve served
  have genuine : link.Genuine ResponseTo := by
    refine inv.genuine.serve (fun req configs answer => ?_) served
    split at answer
    · obtain ⟨⟨head, same⟩, handled, rfl⟩ := Option.map_eq_some_iff.mp answer
      exact ⟨o, dao, head, handled⟩
    · cases answer
  obtain ⟨k, ks, req, -, -, rfl⟩ := Conversation.serve_eq_some.mp served
  exact ⟨ordered, genuine, inv.last, inv.kept⟩

theorem Inv.downloadAllConfigRes (inv : s.Inv) {failed : Option CConfigList}
    (step : s.step (.downloadAllConfigRes failed) = some s') : s'.Inv := by
  obtain ⟨⟨r, link⟩, received, step⟩ := Option.bind_eq_some_iff.mp step
  -- while the own response is there, nothing else arrives
  have unanswered (number left : Nat) (configs : CConfigList)
      (waiting : s.call = .waiting number left) : (number, configs) ∉ s.link.arrived := by
    intro answered
    rw [inv.inOrder.silent (inv.last number left waiting) answered] at received
    cases received
  cases failed with
  | none =>
    obtain rfl := Option.some.inj step
    have ordered := inv.inOrder.receive received
    have genuine := inv.genuine.receive received
    obtain ⟨rs, responses, rfl⟩ := Conversation.receive_eq_some.mp received
    refine ⟨ordered, genuine, inv.last, fun number left configs waiting answered => ?_⟩
    rcases List.mem_append.mp answered with old | new
    · exact absurd old (unanswered number left configs waiting)
    · rw [← List.mem_singleton.mp new]
  | some rest =>
    obtain rfl := Option.some.inj step
    refine ⟨inv.inOrder.lose, inv.genuine.lose, inv.last, ?_⟩
    exact fun number left configs waiting answered =>
      absurd answered (unanswered number left configs waiting)

theorem machine_preserves_inv : machine.Preserves (fun _ _ => True) Inv := by
  intro s event s' inv _ step
  cases event with
  | downloadAllConfig page pageCount timeoutSec =>
    have step : s.step (.downloadAllConfig page pageCount timeoutSec) = some s' := step
    unfold ConfigPages.step at step
    dsimp only at step
    split at step
    · obtain rfl := Option.some.inj step
      exact inv.notWaiting (by simp)
    · cases step
  | autoConnect connected sent => exact inv.autoConnect step
  | look => exact inv.look step
  | serve o dao sent => exact inv.serve step
  | downloadAllConfigRes failed => exact inv.downloadAllConfigRes step

/-! ## Pages -/

theorem Inv.ownPage (inv : s.Inv) {event : Event} (answered : s.Answered event) :
    s.OwnPage event := by
  cases event with
  | look =>
    intro number left configs waiting filled
    obtain ⟨own, mem⟩ := answered number left waiting (by simp [filled])
    obtain rfl : own = configs :=
      Option.some.inj ((inv.kept number _ own waiting mem).symm.trans filled)
    exact ⟨mem, inv.genuine _ (List.mem_append_left _ mem)⟩
  | _ => trivial

/-- In a run in which no call looks at an `allConfigs` that is filled before its own response has
arrived and been parsed, every list that a call returns from there is its own response. -/
theorem pages_own (events : List Event) (answered : machine.Along Answered {} events) :
    machine.Along OwnPage {} events :=
  machine.along_of_invariant machine_preserves_inv.weaken
    (fun _ _ inv answered => inv.ownPage answered) .init answered

end

open Library.Wire.Reader

/-- A page with one service, for the first request. -/
def oneService : ConfigDAO :=
  { rows := [.ofConfig { serviceName := "dir", servicePort := 20011, serviceIp := "127.0.0.1" }] }

/-- A call whose response arrives while it waits. -/
def inTime : List Event :=
  [.downloadAllConfig 1 10 1, .autoConnect true true, .look, .serve {} oneService true,
    .downloadAllConfigRes none]

theorem pages_own_inTime : machine.Along OwnPage {} (inTime ++ [.look]) := by
  have unanswered : machine.Along Answered {} inTime := by
    refine ⟨trivial, fun s₁ first => ⟨trivial, fun s second => ⟨?_, fun _ _ => ⟨trivial, fun _ _ =>
      ⟨trivial, fun _ _ => trivial⟩⟩⟩⟩⟩
    intro number left _ filled
    have empty : (machine.run {} (inTime.take 2)).map (·.allConfigs) = some none := by
      decide +kernel
    have reached : machine.run {} (inTime.take 2) = some s := by
      simp [inTime, Machine.run, first, second]
    rw [reached] at empty
    exact absurd (Option.some.inj empty) filled
  refine pages_own _ (machine.along_concat.mpr ⟨unanswered, fun s reached => ?_⟩)
  intro number left waiting _
  have trace : (machine.run {} inTime).map (fun s => (s.call, s.link.arrived.map (·.1))) =
      some (.waiting 0 99, [0]) := by decide +kernel
  rw [reached, Option.map_some, Option.some.injEq, Prod.mk.injEq] at trace
  obtain ⟨call, arrived⟩ := trace
  obtain ⟨rfl, -⟩ := PageCall.waiting.inj (call.symm.trans waiting)
  have mem : 0 ∈ s.link.arrived.map (·.1) := by
    rw [arrived]
    exact List.mem_singleton_self _
  obtain ⟨⟨k, configs⟩, there, rfl⟩ := List.mem_map.mp mem
  exact ⟨configs, there⟩

/-- The first call gives up after a second, then the second asks for another page, and the response
to the first arrives. -/
def late : List Event :=
  [.downloadAllConfig 1 10 1, .autoConnect true true] ++ List.replicate 101 .look ++
    [.downloadAllConfig 2 10 1, .autoConnect true true, .serve {} oneService true,
      .downloadAllConfigRes none]

/-- The second call returns the first page. What is left of a response that could not be parsed is
returned too. -/
theorem page_of_another_call :
    ¬machine.Along OwnPage {} (late ++ [.look]) ∧
    ¬machine.Along OwnPage {} ([.downloadAllConfig 1 10 1, .autoConnect true true,
      .serve {} oneService true, .downloadAllConfigRes (some {})] ++ [.look]) := by
  constructor
  · intro along
    have trace : (machine.run {} late).map (fun s =>
        (s.call, s.allConfigs.map (·.config.length), s.link.arrived.map (·.1))) =
        some (.waiting 1 100, some 1, [0]) := by decide +kernel
    obtain ⟨s, reached, values⟩ := Option.map_eq_some_iff.mp trace
    obtain ⟨call, filled, arrived⟩ : s.call = .waiting 1 100 ∧
        s.allConfigs.map (·.config.length) = some 1 ∧ s.link.arrived.map (·.1) = [0] := by
      simpa using values
    obtain ⟨configs, found, -⟩ := Option.map_eq_some_iff.mp filled
    have own := machine.along_last along reached 1 99 configs call found
    have mem := List.mem_map_of_mem (f := Prod.fst) own.1
    rw [arrived] at mem
    exact absurd mem (by simp)
  · intro along
    have trace : (machine.run {} [.downloadAllConfig 1 10 1, .autoConnect true true,
        .serve {} oneService true, .downloadAllConfigRes (some {})]).map (fun s =>
        (s.call, s.allConfigs, s.link.arrived)) = some (.waiting 0 100, some {}, []) := by
      decide +kernel
    obtain ⟨s, reached, values⟩ := Option.map_eq_some_iff.mp trace
    obtain ⟨call, filled, arrived⟩ : s.call = .waiting 0 100 ∧ s.allConfigs = some {} ∧
        s.link.arrived = [] := by simpa using values
    have own := machine.along_last along reached 0 99 {} call filled
    rw [arrived] at own
    exact absurd own.1 (List.not_mem_nil)

end ConfigPages

end MicroserviceFramework.Config
