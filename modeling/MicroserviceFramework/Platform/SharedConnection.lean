import MicroserviceFramework.Library.Threads
import MicroserviceFramework.Platform.Segmentation

/-!
# Threads that send on one connection

`writeMsg` holds the mutex of the connection, `sendMsg` does not: it locks it three times. So
two threads that send at once can mix their frames. They do not if a send begins only when no
other is going on, as it is for senders that share a lock of their own; then the output is whole
frames, in an order that keeps each thread's.
-/

namespace MicroserviceFramework.Platform

open Library

variable {codec : HeadCodec} {θ : Type*} [DecidableEq θ]

/-- One `writeMsg` call of a send, as one atomic step. -/
def write (data : List UInt8) (conn : CComeTask) : Bool × CComeTask :=
  conn.writeMsg (CComeTask.callOf data).1 (CComeTask.callOf data).2 true

/-- A connection, the frames that each thread has still to send on it, and where each thread is
in the one that it is sending. -/
abbrev Senders (θ : Type*) (codec : HeadCodec) :=
  Threads θ (List UInt8) (OutFrame codec) CComeTask

namespace Senders

def start (conn : CComeTask) (frames : θ → List (OutFrame codec)) : Senders θ codec where
  shared := conn
  queue := frames
  calls _ := []

omit [DecidableEq θ] in
@[simp] theorem start_shared (conn : CComeTask) (frames : θ → List (OutFrame codec)) :
    (start conn frames).shared = conn := rfl

def machine : Machine (Senders θ codec) θ := Threads.machine OutFrame.pieces write

omit [DecidableEq θ] in
theorem runCalls_write (datas : List (List UInt8)) (conn : CComeTask) :
    Threads.runCalls write datas conn = (conn.writeAll (datas.map CComeTask.callOf) []).2 := by
  induction datas generalizing conn with
  | nil => rfl
  | cons data datas ih =>
    rcases wrote : write data conn with ⟨ok, conn'⟩
    have wrote' : conn.writeMsg (some data) data.length true = (ok, conn') := wrote
    cases ok <;>
      simp [Threads.runCalls, CComeTask.writeAll, CComeTask.callOf, wrote, wrote', ih]

/-- Left alone, the calls are those of `sendMsg`. -/
theorem runCalls_pieces (f : OutFrame codec) (conn : CComeTask) :
    Threads.runCalls write f.pieces conn =
      (conn.sendMsg codec (some f.head) (some (.ofBytes f.body)) []).2 := by
  rw [runCalls_write, CComeTask.sendMsg, f.parts_eq]

omit [DecidableEq θ] in
theorem runAll_append_bytes {conn : CComeTask} (up : conn.bev.isSome)
    (log : List (θ × OutFrame codec)) :
    Threads.runAll OutFrame.pieces write conn log = conn.append (log.flatMap (·.2.bytes)) := by
  induction log generalizing conn with
  | nil => simp [Threads.runAll]
  | cons entry log ih =>
    have first : Threads.runCalls write entry.2.pieces conn = conn.append entry.2.bytes := by
      rw [runCalls_pieces, entry.2.sendMsg_append up]
    have rest := ih ((conn.append_bev_isSome entry.2.bytes).trans up)
    simp only [Threads.runAll, List.foldl_cons, first] at rest ⊢
    rw [rest]
    simp

theorem write_up {conn : CComeTask} (up : conn.bev.isSome) (data : List UInt8) :
    (write data conn).2.bev.isSome := by
  simp [write, CComeTask.callOf, CComeTask.writeMsg_bytes up, up]

/-- If no send begins while another is going on, then what is written is whole frames, up to the
rest of the frame that is being sent at the end. -/
theorem whole_frames {conn : CComeTask} {frames : θ → List (OutFrame codec)} (ts : List θ)
    {s : Senders θ codec} (up : conn.bev.isSome) (alone : machine.Along Threads.Alone (start conn frames) ts)
    (run : machine.run (start conn frames) ts = some s) :
    ∃ log : List (θ × OutFrame codec), (∀ u, Threads.opsOf u log ++ s.queue u = frames u) ∧
      ∃ rest, s.shared.output ++ rest = conn.output ++ log.flatMap (·.2.bytes) ∧
        ((∀ u, s.calls u = []) → rest = []) := by
  cases ts with
  | nil =>
    obtain rfl := Option.some.inj run
    exact ⟨[], fun u => rfl, [], by simp [start], fun _ => rfl⟩
  | cons t ts =>
    obtain ⟨log, u, serial⟩ := Threads.serial (fun _ => rfl) alone run t
    have stays : s.shared.bev.isSome :=
      Threads.run_shared (I := fun conn => conn.bev.isSome) (fun data _ up => write_up up data) up run
    have state := serial.state
    rw [start_shared, runAll_append_bytes up, runCalls_write, CComeTask.writeAll_append stays] at state
    have output := congrArg CComeTask.output state
    rw [CComeTask.append_output stays, CComeTask.append_output up] at output
    refine ⟨log, serial.order, _, output, fun idle => ?_⟩
    rw [idle u]
    rfl

/-! ## Two threads -/

/-- The output is the given frames, in an order that keeps each thread's. -/
def WholeFrames (frames : θ → List (OutFrame codec)) (output : List UInt8) : Prop :=
  ∃ log : List (θ × OutFrame codec), (∀ u, Threads.opsOf u log = frames u) ∧
    output = log.flatMap (·.2.bytes)

/-- A connection that is up. -/
def connection : CComeTask := { bev := some {}, isConnecting := false, isConnected := true }

open Library.Wire.Reader

/-- One thread asks for the services, the other sends a heartbeat. -/
def twoRequests : Bool → List (OutFrame CMsgHead.codec)
  | false => [getServiceFrame.toOutFrame]
  | true => [heartFrame.toOutFrame]

/-- The heartbeat begins when the request has been sent, and goes on. -/
theorem whole_frames_in_turn :
    ∃ s, machine.run (start connection twoRequests) [false, false, false, true] = some s ∧
      ∃ log : List (Bool × OutFrame CMsgHead.codec),
        (∀ u, Threads.opsOf u log ++ s.queue u = twoRequests u) ∧
        ∃ rest, s.shared.output ++ rest = connection.output ++ log.flatMap (·.2.bytes) ∧
          ((∀ u, s.calls u = []) → rest = []) :=
  ⟨_, rfl, whole_frames [false, false, false, true] rfl (by unfold Threads.Alone; decide) rfl⟩

/-- Both lengths are written before either header. -/
theorem frames_mixed :
    ∃ s, machine.run (start connection twoRequests) [false, true, false, true, false, true] =
        some s ∧ (∀ u, s.queue u = [] ∧ s.calls u = []) ∧
      ¬WholeFrames twoRequests s.shared.output := by
  refine ⟨_, rfl, by decide, ?_⟩
  rintro ⟨log, order, output⟩
  change [2, 0, 0, 0, 4, 0, 0, 0, 16, 7, 16, 254, 255, 3] = _ at output
  cases log with
  | nil => simp at output
  | cons entry log =>
    obtain ⟨u, f⟩ := entry
    have first : f.bytes <+: [2, 0, 0, 0, 4, 0, 0, 0, 16, 7, 16, 254, 255, 3] := by
      rw [output]
      exact List.prefix_append _ _
    have begun := order u
    cases u with
    | false =>
      obtain rfl : f = getServiceFrame.toOutFrame := by simp_all [Threads.opsOf, twoRequests]
      exact absurd first (by decide)
    | true =>
      obtain rfl : f = heartFrame.toOutFrame := by simp_all [Threads.opsOf, twoRequests]
      exact absurd first (by decide)

end Senders

end MicroserviceFramework.Platform
