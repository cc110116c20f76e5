import MicroserviceFramework.Library.Countdown
import MicroserviceFramework.Library.Machine
import MicroserviceFramework.Register.Responses

/-!
# Waiting for the services of a name

`getServices` waits for the connection, asks for the list of a name, and looks for it in memory
until its time is up. A step is what it does between two locks or sleeps, and the connection and the
cache can change in between. Time is counted in units of 10 milliseconds.

When it runs out of time it returns no services, even those that it has just read from the file.
-/

namespace MicroserviceFramework.Register

open Library Platform

/-- Where the call is. -/
inductive Call where
  /-- At the head of the loop that waits for the connection. -/
  | wait (curTm : Int32)
  /-- After that loop. -/
  | check (curTm : Int32)
  /-- There was no connection. -/
  | load
  /-- At the head of the loop that waits for the list. -/
  | poll (curTm : Int32)
  | returned (serviceList : CServiceList)
  deriving DecidableEq

structure GetServices where
  client : CRegisterClient
  isConnected : Bool
  call : Call := .wait 0
  /-- The bodies of the requests that were sent. -/
  requests : List (List UInt8) := []

namespace GetServices

inductive Event where
  /-- `opened` is whether the file, if there is one, can be opened for reading. -/
  | call (opened : Bool)
  | setConnected (connected : Bool)
  | getServiceRes (parsed : Bool × CServiceMap) (opened : Bool)
  | getAllService (opened : Bool)
  | registerServer (serviceName : Option String) (port : Int32) (ip : Option String) (opened : Bool)
  deriving DecidableEq

def Event.isCall : Event → Bool
  | .call _ => true
  | _ => false

/-- The branch without a connection reads the file if there is no cache yet. -/
def fallback (opened : Bool) (c : CRegisterClient) : CRegisterClient :=
  if c.pbServiceMap.isNone then c.loadLocalFileIf opened else c

/-- `getServiceReq(serviceName)`. -/
def ask (name : String) (s : GetServices) : GetServices :=
  { s with requests := s.requests ++ [CRegisterClient.getServiceReq (some name)] }

/-- The next step of `getServices`. `mutable_servicemap` is never null. -/
def advance (name : String) (totalTm : Int32) (opened : Bool) (s : GetServices) :
    Option GetServices :=
  match s.call with
  | .wait curTm =>
    if curTm < totalTm then
      if s.isConnected then some { s with call := .check curTm }
      else some { s with call := .wait (curTm + 1) }
    else some { s with call := .check curTm }
  | .check curTm =>
    if !s.isConnected then some { s with call := .load }
    else some { s.ask name with call := .poll curTm }
  | .load => some { s with client := fallback opened s.client, call := .returned [] }
  | .poll curTm =>
    if curTm < totalTm then
      match s.client.pbServiceMap with
      | none => some { s with call := .poll (curTm + 1) }
      | some map =>
        match map.serviceMap.lookup name with
        | none => some { s.ask name with call := .poll (curTm + 10) }
        | some services => some { s with call := .returned services }
    else some { s with call := .returned [] }
  | .returned _ => none

def step (name : String) (totalTm : Int32) (s : GetServices) : Event → Option GetServices
  | .call opened => s.advance name totalTm opened
  | .setConnected connected => some { s with isConnected := connected }
  | .getServiceRes parsed opened =>
    some { s with client := s.client.getServiceRes parsed opened }
  | .getAllService opened => some { s with client := s.client.getAllServiceIf opened }
  | .registerServer serviceName port ip opened =>
    some { s with client := s.client.registerServer serviceName port ip opened }

/-- `getServices(name, timeoutSec)`, with whatever happens meanwhile. -/
def machine (name : String) (timeoutSec : Int32) : Machine GetServices Event :=
  ⟨step name (timeoutSec * 100)⟩

variable {name : String} {totalTm timeoutSec : Int32} {opened : Bool} {s t : GetServices}

/-- The steps of the call. -/
inductive Advance (name : String) (totalTm : Int32) (opened : Bool) (s : GetServices) :
    GetServices → Prop
  | waited {curTm : Int32} (call : s.call = .wait curTm) :
    Advance name totalTm opened s { s with call := .check curTm }
  | sleep {curTm : Int32} (call : s.call = .wait curTm) (early : curTm < totalTm) :
    Advance name totalTm opened s { s with call := .wait (curTm + 1) }
  | down {curTm : Int32} (call : s.call = .check curTm) :
    Advance name totalTm opened s { s with call := .load }
  | up {curTm : Int32} (call : s.call = .check curTm) :
    Advance name totalTm opened s { s.ask name with call := .poll curTm }
  | load (call : s.call = .load) :
    Advance name totalTm opened s
      { s with client := fallback opened s.client, call := .returned [] }
  | noCache {curTm : Int32} (call : s.call = .poll curTm) (early : curTm < totalTm)
    (memory : s.client.pbServiceMap = none) :
    Advance name totalTm opened s { s with call := .poll (curTm + 1) }
  | missing {curTm : Int32} (call : s.call = .poll curTm) (early : curTm < totalTm)
    (memory : s.client.pbServiceMap.isSome) :
    Advance name totalTm opened s { s.ask name with call := .poll (curTm + 10) }
  | found {curTm : Int32} {serviceList : CServiceList} (call : s.call = .poll curTm)
    (early : curTm < totalTm) (list : registered s.client.pbServiceMap name = some serviceList) :
    Advance name totalTm opened s { s with call := .returned serviceList }
  | late {curTm : Int32} (call : s.call = .poll curTm) (late : ¬curTm < totalTm) :
    Advance name totalTm opened s { s with call := .returned [] }

theorem Advance.of_step (step : s.advance name totalTm opened = some t) :
    Advance name totalTm opened s t := by
  unfold advance at step
  split at step
  next curTm call =>
    split at step
    next early =>
      split at step <;> obtain rfl := Option.some.inj step
      · exact .waited call
      · exact .sleep call early
    next =>
      obtain rfl := Option.some.inj step
      exact .waited call
  next curTm call =>
    split at step <;> obtain rfl := Option.some.inj step
    · exact .down call
    · exact .up call
  next call =>
    obtain rfl := Option.some.inj step
    exact .load call
  next curTm call =>
    split at step
    next early =>
      split at step
      next memory =>
        obtain rfl := Option.some.inj step
        exact .noCache call early memory
      next map memory =>
        split at step <;> obtain rfl := Option.some.inj step
        next => exact .missing call early (by rw [memory, Option.isSome_some])
        next list => exact .found call early (by rw [memory]; exact list)
    next late =>
      obtain rfl := Option.some.inj step
      exact .late call late
  next => cases step

/-! ## The call returns -/

/-- Adding ten over and over comes to the total time, even where it wraps: ten and the total time
are even, so one of the two largest numbers is among the sums. -/
theorem polls_end (timeoutSec curTm : Int32) :
    ∃ k ≤ 2 ^ 32, ¬(· + (10 : Int32))^[k] curTm < timeoutSec * 100 := by
  -- five times 3435973837 is one more than a multiple of 2 ^ 32
  let half := ((2147483646 + curTm.toInt % 2 - curTm.toInt) / 2).toNat
  refine ⟨half * 3435973837 % 2 ^ 32, Nat.le_of_lt (Nat.mod_lt _ (by decide)), ?_⟩
  have lower := curTm.le_toInt
  have upper := curTm.toInt_lt
  have ten : (10 : Int32).toInt = 10 := rfl
  have hundred : (100 : Int32).toInt = 100 := rfl
  rw [Int32.lt_iff_toInt_lt, Countdown.toInt_iterate_add, Int32.toInt_mul, ten, hundred]
  simp only [Int.bmod]
  omega

theorem polls_end' (timeoutSec curTm : Int32) :
    ∃ k, ¬(· + (10 : Int32))^[k] curTm < timeoutSec * 100 :=
  (polls_end timeoutSec curTm).imp fun _ => And.right

/-- How often the call can still ask for a list that the cache does not have. -/
def polls (timeoutSec : Int32) : Int32 → Nat :=
  Countdown.rounds (p := fun curTm => ¬curTm < timeoutSec * 100) (polls_end' timeoutSec)

theorem polls_le (timeoutSec curTm : Int32) : polls timeoutSec curTm ≤ 2 ^ 32 := by
  obtain ⟨k, bound, ended⟩ := polls_end timeoutSec curTm
  exact (Countdown.rounds_le (polls_end' timeoutSec) ended).trans bound

theorem polls_succ {curTm : Int32} (early : curTm < timeoutSec * 100) :
    polls timeoutSec curTm = polls timeoutSec (curTm + 10) + 1 :=
  Countdown.rounds_succ (polls_end' timeoutSec) (not_not_intro early)

/-- The time that is left. -/
def remaining (timeoutSec curTm : Int32) : Nat := ((timeoutSec * 100).toInt - curTm.toInt).toNat

theorem remaining_succ {curTm : Int32} (early : curTm < timeoutSec * 100) :
    remaining timeoutSec curTm = remaining timeoutSec (curTm + 1) + 1 := by
  have lower := curTm.le_toInt
  have upper := (timeoutSec * 100).toInt_lt
  have one : (1 : Int32).toInt = 1 := rfl
  rw [Int32.lt_iff_toInt_lt] at early
  simp only [remaining, Int32.toInt_add, one, Int.bmod]
  omega

/-- Every step of the call lowers this, and nothing else raises it. -/
def measure (timeoutSec : Int32) (s : GetServices) : Nat :=
  match s.call with
  | .wait curTm => 2 * remaining timeoutSec curTm + 2 ^ 32 + 4
  | .check curTm => remaining timeoutSec curTm + 2 ^ 32 + 3
  | .load => 1
  | .poll curTm =>
    if s.client.pbServiceMap.isSome then polls timeoutSec curTm + 1
    else remaining timeoutSec curTm + 2 ^ 32 + 2
  | .returned _ => 0

theorem Advance.measure_lt (step : Advance name (timeoutSec * 100) opened s t) :
    measure timeoutSec t < measure timeoutSec s := by
  cases step with
  | @waited curTm call => grind [measure]
  | sleep call early => grind [measure, remaining_succ early]
  | down call => grind [measure]
  | @up curTm call => grind [measure, ask, polls_le timeoutSec curTm]
  | load call => grind [measure]
  | noCache call early memory => grind [measure, remaining_succ early]
  | missing call early memory => grind [measure, ask, polls_succ early]
  | found call early list => grind [measure]
  | late call late => grind [measure]

/-- A cache that is there stays there. -/
theorem pbServiceMap_isSome_of_step {e : Event} (other : e.isCall = false)
    (step : (machine name timeoutSec).step s e = some t) :
    t.call = s.call ∧ (s.client.pbServiceMap.isSome → t.client.pbServiceMap.isSome) := by
  cases e with
  | call opened => cases other
  | setConnected connected =>
    obtain rfl := Option.some.inj step
    exact ⟨rfl, id⟩
  | getServiceRes parsed opened =>
    obtain rfl := Option.some.inj step
    exact ⟨rfl, fun _ => s.client.getServiceRes_isSome parsed opened⟩
  | getAllService opened =>
    obtain rfl := Option.some.inj step
    exact ⟨rfl, fun _ => s.client.loadLocalFileIf_isSome opened⟩
  | registerServer serviceName port ip opened =>
    obtain rfl := Option.some.inj step
    exact ⟨rfl, fun _ => CRegisterClient.loadLocalFileIf_isSome _ opened⟩

theorem measure_step {e : Event} (step : (machine name timeoutSec).step s e = some t) :
    measure timeoutSec t ≤ measure timeoutSec s := by
  rcases isCall : e.isCall with _ | _
  · obtain ⟨call, kept⟩ := pbServiceMap_isSome_of_step isCall step
    rw [measure, measure, call]
    cases s.call with
    | poll curTm =>
      have bound := polls_le timeoutSec curTm
      grind
    | _ => exact Nat.le_refl _
  · cases e with
    | call opened => exact Nat.le_of_lt (Advance.of_step step).measure_lt
    | _ => cases isCall

/-- However the call is interleaved with everything else, it makes so many steps at most. -/
theorem countP_isCall_le {events : List Event}
    (run : (machine name timeoutSec).run s events = some t) :
    events.countP Event.isCall ≤ measure timeoutSec s := by
  refine Nat.le_of_add_right_le ((machine name timeoutSec).run_countP_le (measure timeoutSec)
    Event.isCall (fun s e t isCall step => ?_) (fun s e t step => measure_step step) run)
  cases e with
  | call opened => exact (Advance.of_step step).measure_lt
  | _ => cases isCall

/-- It is never stuck either. -/
theorem advance_isSome (opened : Bool) (s : GetServices) :
    (s.advance name totalTm opened).isSome ∨ ∃ serviceList, s.call = .returned serviceList := by
  unfold advance
  split
  next => split <;> (try split) <;> exact .inl rfl
  next => split <;> exact .inl rfl
  next => exact .inl rfl
  next =>
    split
    · split
      · exact .inl rfl
      · split <;> exact .inl rfl
    · exact .inl rfl
  next serviceList call => exact .inr ⟨serviceList, call⟩

/-! ## What it returns -/

/-- The step returns the services of the name that are in memory when it returns. -/
def ReturnsCached (name : String) (timeoutSec : Int32) (s : GetServices) (e : Event) : Prop :=
  ∀ t serviceList, e.isCall → (machine name timeoutSec).step s e = some t →
    t.call = .returned serviceList → serviceList = services t.client.pbServiceMap name

/-- A call that gives up, for lack of a connection or of time, has no services of the name in
memory. -/
def GivesUpWithout (name : String) (timeoutSec : Int32) (s : GetServices) : Event → Prop
  | .call opened =>
    match s.call with
    | .load => services (fallback opened s.client).pbServiceMap name = []
    | .poll curTm => curTm < timeoutSec * 100 ∨ services s.client.pbServiceMap name = []
    | _ => True
  | _ => True

/-- The call returns the list of the name if it finds it in time, and nothing otherwise. -/
theorem Advance.returned {serviceList : CServiceList} (step : Advance name totalTm opened s t)
    (returned : t.call = .returned serviceList) :
    (s.call = .load ∧ t.client = fallback opened s.client ∧ serviceList = []) ∨
      ∃ curTm, s.call = .poll curTm ∧ t.client = s.client ∧
        (curTm < totalTm ∧ registered s.client.pbServiceMap name = some serviceList ∨
          ¬curTm < totalTm ∧ serviceList = []) := by
  cases step with
  | load call => exact .inl ⟨call, rfl, (Call.returned.inj returned).symm⟩
  | @found curTm list call early found =>
    obtain rfl := Call.returned.inj returned
    exact .inr ⟨curTm, call, rfl, .inl ⟨early, found⟩⟩
  | @late curTm call late =>
    exact .inr ⟨curTm, call, rfl, .inr ⟨late, (Call.returned.inj returned).symm⟩⟩
  | _ => cases returned

theorem advance_load (call : s.call = .load) : s.advance name totalTm opened =
    some { s with client := fallback opened s.client, call := .returned [] } := by
  rw [advance, call]

theorem advance_late {curTm : Int32} (call : s.call = .poll curTm)
    (late : ¬curTm < totalTm) :
    s.advance name totalTm opened = some { s with call := .returned [] } := by
  rw [advance, call]
  exact if_neg late

theorem returnsCached_iff (s : GetServices) (e : Event) :
    s.ReturnsCached name timeoutSec e ↔ s.GivesUpWithout name timeoutSec e := by
  cases e with
  | call opened =>
    constructor
    · intro cached
      cases call : s.call with
      | load =>
        rw [GivesUpWithout, call]
        exact (cached _ [] rfl (advance_load call) rfl).symm
      | poll curTm =>
        rw [GivesUpWithout, call]
        by_cases early : curTm < timeoutSec * 100
        · exact .inl early
        · exact .inr (cached _ [] rfl (advance_late call early) rfl).symm
      | _ =>
        rw [GivesUpWithout, call]
        trivial
    · intro without t serviceList _ step returned
      rcases (Advance.of_step step).returned returned with
        ⟨call, client, rfl⟩ | ⟨curTm, call, client, result⟩
      · rw [GivesUpWithout, call] at without
        rw [client]
        exact without.symm
      · rw [GivesUpWithout, call] at without
        rw [client]
        rcases result with ⟨early, found⟩ | ⟨late, rfl⟩
        · rw [services, found, Option.getD_some]
        · exact (without.resolve_left late).symm
  | _ => exact ⟨fun _ => trivial, by rintro - t serviceList ⟨⟩⟩

/-! ## The whole call -/

/-- The call makes so many steps at most, and can always make the next until it has returned. -/
def Terminates (name : String) (timeoutSec : Int32) (s : GetServices) : Prop :=
  ∃ bound, ∀ events t, (machine name timeoutSec).run s events = some t →
    events.countP Event.isCall ≤ bound ∧ ∀ opened,
      ((machine name timeoutSec).step t (.call opened)).isSome ∨
        ∃ serviceList, t.call = .returned serviceList

theorem terminates (name : String) (timeoutSec : Int32) (s : GetServices) :
    s.Terminates name timeoutSec :=
  ⟨measure timeoutSec s, fun _ t run =>
    ⟨countP_isCall_le run, fun opened => advance_isSome opened t⟩⟩

/-- `getServices` ends, and returns what the cache has for the name when it returns, exactly if the
cache has nothing for the name whenever the call gives up. -/
theorem getServices_falls_back (name : String) (timeoutSec : Int32) (client : CRegisterClient)
    (isConnected : Bool) (events : List Event) :
    (Terminates name timeoutSec { client := client, isConnected := isConnected } ∧
        (machine name timeoutSec).Along (ReturnsCached name timeoutSec)
          { client := client, isConnected := isConnected } events) ↔
      (machine name timeoutSec).Along (GivesUpWithout name timeoutSec)
        { client := client, isConnected := isConnected } events := by
  constructor
  · rintro ⟨-, returns⟩
    exact returns.imp _ fun s e => (returnsCached_iff s e).mp
  · intro without
    exact ⟨terminates name timeoutSec _, without.imp _ fun s e => (returnsCached_iff s e).mpr⟩

/-- What an earlier run left in the file. -/
def lastRun : CRegisterClient where
  file := some {
    serviceMap := .insert "dir" [{ name := "dir", ip := "127.0.0.1", port := 20011 }] ∅ }

/-- A second without connection. -/
def unconnected : List Event := List.replicate 102 (.call true)

/-- The services are read from the file, and not returned. -/
theorem file_not_returned :
    ¬(machine "dir" 1).Along (ReturnsCached "dir" 1) { client := lastRun, isConnected := false }
      (unconnected ++ [.call true]) := by
  intro returns
  have reached : ((machine "dir" 1).run { client := lastRun, isConnected := false } unconnected).map
      (fun s => (s.call, services (fallback true s.client).pbServiceMap "dir")) =
        some (.load, [{ name := "dir", ip := "127.0.0.1", port := 20011 }]) := by
    decide +kernel
  obtain ⟨s, run, values⟩ := Option.map_eq_some_iff.mp reached
  obtain ⟨call, loaded⟩ := Prod.mk.inj values
  have without := (returnsCached_iff s (.call true)).mp ((machine "dir" 1).along_last returns run)
  rw [GivesUpWithout, call] at without
  exact List.cons_ne_nil _ _ (loaded.symm.trans without)

end GetServices

end MicroserviceFramework.Register
