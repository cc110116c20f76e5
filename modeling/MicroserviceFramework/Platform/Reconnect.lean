import MicroserviceFramework.Platform.Segmentation

/-!
# An object and its next connection

A client object outlives its connections. `eventCb` ends one through `CComeTask::closeBev`, which
frees the bufferevent and zeroes the `msg_` of the base class; `CMsgEvent::close` and `clear`,
which would reset the receive state, are not called. So `head_`, `msg_` and `pbHead_` meet the
bytes of the next connection as the last one left them.
-/

namespace MicroserviceFramework.Platform

open Library Receiver

structure CMsgEvent where
  task : CComeTask := {}
  rx : Receiver := {}
  deriving DecidableEq, Repr

namespace CMsgEvent

variable (codec : HeadCodec)

/-- A chunk arrives, if there is a bufferevent it can arrive at, and the read callback runs. -/
def recv (e : CMsgEvent) (chunk : List UInt8) : List Dispatch × CMsgEvent :=
  if e.task.bev.isNone then ([], e)
  else ((e.rx.recv codec chunk).1, { e with rx := (e.rx.recv codec chunk).2 })

/-- `CComeTask::eventCb`; unread input is freed with the bufferevent. -/
def eventCb (what : What) (e : CMsgEvent) : Option CMsgEvent :=
  (e.task.eventCb what).map fun task =>
    { task := task, rx := if task.bev.isNone then { e.rx with input := [] } else e.rx }

def connect (lib : Libevent) (e : CMsgEvent) : Bool × CMsgEvent :=
  ((e.task.connect lib).1, { e with task := (e.task.connect lib).2 })

/-- The messages of the next connection: the old one delivers some chunks and ends, `connect()`
succeeds, and new chunks arrive. -/
def nextMessages (old : List (List UInt8)) (what : What) (lib : Libevent)
    (new : List (List UInt8)) (e : CMsgEvent) : Option (List Dispatch) := do
  let e ← (transduce (recv codec) e old).2.eventCb what
  if (e.connect lib).1 then
    let e ← (e.connect lib).2.eventCb { connected := true }
    return (transduce (recv codec) e new).1
  else none

end CMsgEvent

/-! ## Nothing left over -/

/-- The receive state keeps nothing of a frame. -/
def Receiver.BetweenFrames (r : Receiver) : Prop := r.head = {} ∧ r.msg = {}

/-- A receiver that is between two frames finds the first header it accepts the size of complete:
each chunk in turn is read as a length, until one of these is a size that can be. -/
def FirstHeaderWhole : List UInt8 → List (List UInt8) → Prop
  | _, [] => True
  | left, chunk :: chunks =>
    let input := left ++ chunk
    if Acceptable (leInt (input.take 4)) then leInt (input.take 4) ≤ (input.drop 4).length
    else FirstHeaderWhole (input.drop 4) chunks

instance FirstHeaderWhole.decidable :
    ∀ (left : List UInt8) (chunks : List (List UInt8)), Decidable (FirstHeaderWhole left chunks)
  | _, [] => .isTrue trivial
  | left, chunk :: chunks =>
    have := FirstHeaderWhole.decidable ((left ++ chunk).drop 4) chunks
    inferInstanceAs (Decidable (if Acceptable (leInt ((left ++ chunk).take 4)) then _ else _))

/-- What an old connection left cannot be told from a fresh state by these chunks. -/
def Receiver.LeavesNothing (r : Receiver) (new : List (List UInt8)) : Prop :=
  r.BetweenFrames ∧ (r.pbHead = none ∨ FirstHeaderWhole [] new)

variable {codec : HeadCodec}

/-- A header that is all there replaces the one parsed before it. -/
theorem readCb_header_whole {input : List UInt8} (pb : Option CMsgHead)
    (acceptable : Acceptable (leInt (input.take 4)))
    (whole : leInt (input.take 4) ≤ (input.drop 4).length) :
    readCb codec (idle pb input) = readCb codec (idle none input) := by
  rw [acceptable_iff] at acceptable
  obtain ⟨n, size⟩ : ∃ n : Nat, leInt (input.take 4) = n := ⟨(leInt (input.take 4)).toNat, by omega⟩
  rw [size] at acceptable whole
  have pos : 0 < n := by omega
  obtain ⟨more, rest, split, enough, progress⟩ :=
    exists_split n (input.drop 4) pos (by omega)
  have same : (inHead n [] pb (more ++ rest)).turn codec =
      (inHead n [] none (more ++ rest)).turn codec := by
    have whole : ([] ++ more).length = n := enough
    have here := recvHead_inHead_full codec pb rest whole progress
    have fresh := recvHead_inHead_full codec none rest whole progress
    rw [turn, turn, recvMsg, recvMsg, recvSize_inHead _ _ _ pos, recvSize_inHead _ _ _ pos]
    simp only [here, fresh]
  apply readCb_congr
  rw [turn_idle_accept codec pb input size pos (by omega),
    turn_idle_accept codec none input size pos (by omega), split, same]

theorem transduce_recv_stale (new : List (List UInt8)) (pb : Option CMsgHead) (left : List UInt8)
    (whole : FirstHeaderWhole left new) :
    (transduce (recv codec) (idle pb left) new).1 =
      (transduce (recv codec) (idle none left) new).1 := by
  induction new generalizing left with
  | nil => rfl
  | cons chunk chunks ih =>
    have arrives (pb : Option CMsgHead) :
      recv codec (idle pb left) chunk = readCb codec (idle pb (left ++ chunk)) := rfl
    rw [FirstHeaderWhole] at whole
    simp only [transduce, arrives]
    split at whole
    next acceptable => rw [readCb_header_whole pb acceptable whole]
    next reject =>
      rw [readCb_of_fails (turn_idle_reject codec pb _ reject),
        readCb_of_fails (turn_idle_reject codec none _ reject), ih _ whole]

/-- A receiver in which nothing is left over reads a new connection as a fresh one does. -/
theorem transduce_recv_leavesNothing (codec : HeadCodec) {r : Receiver} {new : List (List UInt8)}
    (nothing : r.LeavesNothing new) :
    (transduce (recv codec) { r with input := [] } new).1 = (transduce (recv codec) {} new).1 := by
  obtain ⟨⟨head, msg⟩, rest⟩ := nothing
  have state : { r with input := [] } = idle r.pbHead [] := by simp [idle, head, msg]
  rw [state]
  rcases rest with fresh | whole
  · rw [fresh]; rfl
  · exact transduce_recv_stale new r.pbHead [] whole

/-! ## Two histories -/

namespace CMsgEvent

theorem transduce_recv_connected {e : CMsgEvent} (up : e.task.bev.isSome)
    (chunks : List (List UInt8)) :
    transduce (recv codec) e chunks =
      ((transduce (Receiver.recv codec) e.rx chunks).1,
        { e with rx := (transduce (Receiver.recv codec) e.rx chunks).2 }) := by
  induction chunks generalizing e with
  | nil => rfl
  | cons chunk chunks ih =>
    have here : recv codec e chunk =
        ((e.rx.recv codec chunk).1, { e with rx := (e.rx.recv codec chunk).2 }) := by
      simp [recv, Option.isNone_eq_false_iff.mpr up]
    simp only [transduce, here]
    rw [ih (e := { e with rx := (e.rx.recv codec chunk).2 }) up]

theorem transduce_recv_task (e : CMsgEvent) (chunks : List (List UInt8)) :
    (transduce (recv codec) e chunks).2.task = e.task := by
  induction chunks generalizing e with
  | nil => rfl
  | cons chunk chunks ih =>
    simp only [transduce]
    rw [ih, recv]
    split <;> rfl

/-- Apart from the receive state, the next connection starts the same way whatever came before. -/
theorem nextMessages_eq_of_rx {e : CMsgEvent} (kept : e.task.autoDelete = false) {what : What}
    (ends : what.ending) (lib : Libevent) (old new : List (List UInt8)) :
    nextMessages codec old what lib new e =
      if lib.bufferevent_new && lib.socket_connect then
        some (transduce (Receiver.recv codec)
          { (transduce (recv codec) e old).2.rx with input := [] } new).1
      else none := by
  obtain ⟨task, ended, closed, -⟩ := (e.task.eventCb_ending ends).2 kept
  obtain ⟨succeeds, up⟩ := task.connect_closed lib closed
  have after : (transduce (recv codec) e old).2.eventCb what =
      some { task := task, rx := { (transduce (recv codec) e old).2.rx with input := [] } } := by
    rw [eventCb, transduce_recv_task, ended]
    simp [closed]
  rw [← succeeds, nextMessages, after]
  simp only [Option.bind_eq_bind, Option.bind_some, connect]
  by_cases connected : (task.connect lib).1 = true
  · obtain ⟨bev, made⟩ := Option.isSome_iff_exists.mp (up connected)
    simp only [connected, if_true, eventCb, CComeTask.eventCb_connected, Option.map_some, made,
      Option.isNone_some, Bool.false_eq_true, if_false, Option.bind_some]
    rw [transduce_recv_connected rfl]
    rfl
  · simp [connected]

/-- Two histories after which nothing is left over, or the same, make no difference to what is
received on the next connection. -/
theorem nextMessages_congr {e : CMsgEvent} (kept : e.task.autoDelete = false) {what : What}
    (ends : what.ending) (lib : Libevent) (old₁ old₂ new : List (List UInt8))
    (left : let rx old := { (transduce (recv codec) e old).2.rx with input := [] }
      rx old₁ = rx old₂ ∨ (rx old₁).LeavesNothing new ∧ (rx old₂).LeavesNothing new) :
    nextMessages codec old₁ what lib new e = nextMessages codec old₂ what lib new e := by
  rw [nextMessages_eq_of_rx kept ends, nextMessages_eq_of_rx kept ends]
  rcases left with same | ⟨nothing₁, nothing₂⟩
  · simp only at same
    rw [same]
  · have fresh₁ := transduce_recv_leavesNothing codec nothing₁
    have fresh₂ := transduce_recv_leavesNothing codec nothing₂
    simp only at fresh₁ fresh₂
    rw [fresh₁, fresh₂]

/-- A client, connected for the first time. -/
def client : CMsgEvent where
  task := { bev := some {}, isConnecting := false, isConnected := true, autoDelete := false }

open Library.Wire.Reader

/-- After a whole request, and after none, the next connection's first header comes at once. -/
theorem nextMessages_client :
    nextMessages CMsgHead.codec [[2, 0, 0, 0, 16, 7]] { eof := true } {}
        [[4, 0, 0, 0, 16, 254, 255, 3]] client =
      nextMessages CMsgHead.codec [] { eof := true } {} [[4, 0, 0, 0, 16, 254, 255, 3]] client :=
  nextMessages_congr rfl rfl {} _ _ _ (.inr
    ⟨⟨⟨by decide, by decide⟩, .inr (by decide)⟩, ⟨⟨by decide, by decide⟩, .inl (by decide)⟩⟩)

/-- A header that was cut off swallows the first request of the next connection. -/
theorem nextMessages_cut_off :
    nextMessages CMsgHead.codec [[4, 0, 0, 0, 16]] { eof := true } {} [[2, 0, 0, 0, 16, 7]] client ≠
      nextMessages CMsgHead.codec [] { eof := true } {} [[2, 0, 0, 0, 16, 7]] client := by
  decide

end CMsgEvent

end MicroserviceFramework.Platform
