import MicroserviceFramework.Library.Machine
import MicroserviceFramework.Platform.Sender

/-!
# Sends that fail

`sendMsg` returns false at the first of its three writes that fails, and takes nothing back. If
the connection stays open, the parts that were written before stay in its output: the peer gets
a length without its header, or a header without its body. A body without bytes always ends so.
-/

namespace MicroserviceFramework.Platform

open Library

/-- One `writeMsg`: whether `closeBev` ran before it, and whether `bufferevent_write` succeeds. -/
structure Attempt where
  closed : Bool := false
  written : Bool := true
  deriving DecidableEq, Repr

namespace CComeTask

def closedBefore (t : CComeTask) (a : Attempt) : Option CComeTask :=
  if a.closed then t.closeBev else some t

/-- `writeAll` on a connection that may be closed meanwhile. There is nothing to say of an object
that `closeBev` deletes. -/
def writeAllClosing (t : CComeTask) :
    List (Option (List UInt8) × Int) → List Attempt → Option (Bool × CComeTask)
  | [], _ => some (true, t)
  | (data, size) :: rest, attempts =>
    match t.closedBefore (attempts.headD {}) with
    | none => none
    | some t =>
      match t.writeMsg data size (attempts.headD {}).written with
      | (false, t) => some (false, t)
      | (true, t) => t.writeAllClosing rest attempts.tail

def sendMsgClosing (codec : HeadCodec) (head : CMsgHead) (msg : CMsg) (attempts : List Attempt)
    (t : CComeTask) : Option (Bool × CComeTask) :=
  t.writeAllClosing (parts codec head msg) attempts

/-- Where nothing is closed, this is `sendMsg`. -/
theorem writeAllClosing_open (t : CComeTask) (calls : List (Option (List UInt8) × Int))
    (written : List Bool) :
    t.writeAllClosing calls (written.map fun ok => { written := ok }) =
      some (t.writeAll calls written) := by
  induction calls generalizing t written with
  | nil => rfl
  | cons call calls ih =>
    have attempt : (written.map fun ok => ({ written := ok } : Attempt)).headD {} =
        { written := written.headD true } := by cases written <;> rfl
    rw [writeAllClosing, writeAll, attempt]
    simp only [closedBefore, Bool.false_eq_true, if_false]
    rcases wrote : t.writeMsg call.1 call.2 (written.headD true) with ⟨ok, t'⟩
    cases ok with
    | false => rfl
    | true =>
      rw [← List.map_tail]
      exact ih t' written.tail

/-! ## One call -/

theorem closedBefore_closed {t t' : CComeTask} {a : Attempt} (closed : a.closed)
    (kept : t.closedBefore a = some t') : t'.bev = none := by
  simp only [closedBefore, closed, if_true, closeBev] at kept
  grind

theorem closedBefore_open {t : CComeTask} {a : Attempt} (stays : ¬a.closed) :
    t.closedBefore a = some t := if_neg stays

theorem writeMsg_down {t : CComeTask} (down : t.bev = none) (data : Option (List UInt8))
    (size : Int) (written : Bool) : t.writeMsg data size written = (false, t) := by
  simp [writeMsg, down]

theorem writeMsg_callOf {t : CComeTask} (up : t.bev.isSome) (data : List UInt8) (written : Bool) :
    t.writeMsg (some data) data.length written =
      if written ∧ data ≠ [] then (true, t.append data) else (false, t) := by
  cases written with
  | true =>
    rw [writeMsg_bytes up]
    cases data <;> simp
  | false =>
    obtain ⟨bev, made⟩ := Option.isSome_iff_exists.mp up
    simp [writeMsg, made]

/-- A row of calls succeeds when each has bytes and no write fails. -/
theorem writeAll_eq_true {t : CComeTask} (up : t.bev.isSome) (datas : List (List UInt8))
    (written : List Bool) : (t.writeAll (datas.map callOf) written).1 = true ↔
      (∀ data ∈ datas, data ≠ []) ∧ ∀ ok ∈ written.take datas.length, ok = true := by
  induction datas generalizing t written with
  | nil => simp [writeAll]
  | cons data datas ih =>
    have first : (∀ ok ∈ written.take (data :: datas).length, ok = true) ↔
        written.headD true = true ∧ ∀ ok ∈ written.tail.take datas.length, ok = true := by
      cases written <;> simp
    rw [List.map_cons, callOf, writeAll, writeMsg_callOf up, first, List.forall_mem_cons]
    by_cases made : written.headD true = true ∧ data ≠ []
    · simp only [if_pos made, ih ((t.append_bev_isSome data).trans up)]
      simp only [made, true_and, ne_eq, not_false_eq_true]
    · simp only [if_neg made]
      grind

variable {t t' : CComeTask} {ok : Bool}

/-- On a connection that is down, or goes down, no write succeeds. -/
theorem writeAllClosing_cons_down {data : List UInt8} {calls : List (Option (List UInt8) × Int)}
    {attempts : List Attempt} (down : t.bev = none ∨ (attempts.headD {}).closed)
    (result : t.writeAllClosing (callOf data :: calls) attempts = some (ok, t')) :
    ok = false ∧ t'.bev = none := by
  rw [callOf, writeAllClosing] at result
  rcases kept : t.closedBefore (attempts.headD {}) with _ | t₁
  · rw [kept] at result
    cases result
  · have down₁ : t₁.bev = none := by
      by_cases closed : (attempts.headD {}).closed
      · exact closedBefore_closed closed kept
      · rw [closedBefore_open closed] at kept
        grind
    rw [kept] at result
    simp only [writeMsg_down down₁] at result
    grind

/-- The writes that are reached succeed, until the connection is closed. -/
def Unbroken : List (List UInt8) → List Attempt → Prop
  | [], _ => True
  | data :: datas, attempts =>
    (attempts.headD {}).closed ∨
      (attempts.headD {}).written ∧ data ≠ [] ∧ Unbroken datas attempts.tail

/-- The first write is made, or fails at once. -/
theorem writeAllClosing_cons_up {data : List UInt8} {calls : List (Option (List UInt8) × Int)}
    {attempts : List Attempt} (up : t.bev.isSome) (stays : ¬(attempts.headD {}).closed) :
    t.writeAllClosing (callOf data :: calls) attempts =
      if (attempts.headD {}).written ∧ data ≠ [] then
        (t.append data).writeAllClosing calls attempts.tail
      else some (false, t) := by
  rw [callOf, writeAllClosing, closedBefore_open stays]
  by_cases made : (attempts.headD {}).written ∧ data ≠ []
  · simp only [writeMsg_callOf up, if_pos made]
  · simp only [writeMsg_callOf up, if_neg made]

/-- Everything has been written when the calls succeed. -/
theorem writeAllClosing_true {datas : List (List UInt8)} {attempts : List Attempt}
    (up : t.bev.isSome) (result : t.writeAllClosing (datas.map callOf) attempts = some (true, t')) :
    t' = t.append datas.flatten := by
  induction datas generalizing t attempts with
  | nil =>
    obtain rfl : t = t' := by simpa [writeAllClosing] using result
    simp
  | cons data datas ih =>
    rw [List.map_cons] at result
    by_cases closed : (attempts.headD {}).closed
    · exact absurd (writeAllClosing_cons_down (.inr closed) result).1 (by decide)
    · rw [writeAllClosing_cons_up up closed] at result
      split at result
      · rw [ih ((t.append_bev_isSome data).trans up) result]
        simp
      · simp at result

/-- A connection that is up at the end was so at the start. -/
theorem writeAllClosing_up {data : List UInt8} {calls : List (Option (List UInt8) × Int)}
    {attempts : List Attempt}
    (result : t.writeAllClosing (callOf data :: calls) attempts = some (ok, t'))
    (up : t'.bev.isSome) : t.bev.isSome := by
  by_contra down
  have closed := (writeAllClosing_cons_down (.inl (by simpa using down)) result).2
  simp [closed] at up

/-- Calls that fail on a connection that is open leave some bytes behind, possibly none. -/
theorem writeAllClosing_broken {datas : List (List UInt8)} {attempts : List Attempt}
    (up : t.bev.isSome) (broken : ¬Unbroken datas attempts) :
    ∃ bytes, t.writeAllClosing (datas.map callOf) attempts = some (false, t.append bytes) := by
  induction datas generalizing t attempts with
  | nil => exact absurd trivial broken
  | cons data datas ih =>
    simp only [Unbroken, not_or] at broken
    obtain ⟨stays, rest⟩ := broken
    rw [List.map_cons, writeAllClosing_cons_up up stays]
    split
    next made =>
      have broken' : ¬Unbroken datas attempts.tail := fun unbroken =>
        rest ⟨made.1, made.2, unbroken⟩
      obtain ⟨bytes, failed⟩ := ih ((t.append_bev_isSome data).trans up) broken'
      exact ⟨data ++ bytes, by rw [failed, append_append]⟩
    next => exact ⟨[], by rw [append_nil]⟩

/-- Calls that no write breaks fail only when the connection is closed. -/
theorem writeAllClosing_unbroken {datas : List (List UInt8)} {attempts : List Attempt}
    (up : t.bev.isSome) (unbroken : Unbroken datas attempts)
    (result : t.writeAllClosing (datas.map callOf) attempts = some (false, t')) :
    t'.bev = none := by
  induction datas generalizing t attempts with
  | nil => simp [writeAllClosing] at result
  | cons data datas ih =>
    rw [List.map_cons] at result
    by_cases closed : (attempts.headD {}).closed
    · exact (writeAllClosing_cons_down (.inr closed) result).2
    · obtain ⟨written, nonempty, rest⟩ := unbroken.resolve_left closed
      rw [writeAllClosing_cons_up up closed, if_pos ⟨written, nonempty⟩] at result
      exact ih ((t.append_bev_isSome data).trans up) rest result

/-- A call that fails leaves nothing in the output of a connection that stays open. -/
def Intact (t : CComeTask) (result : Option (Bool × CComeTask)) : Prop :=
  ∀ t', result = some (false, t') → t'.bev.isSome → t'.output = t.output

/-- The connection is down, the first write fails, or no write fails while it is open. -/
def Spared (t : CComeTask) (datas : List (List UInt8)) (attempts : List Attempt) : Prop :=
  t.bev = none ∨ (attempts.headD {}).written = false ∨ Unbroken datas attempts

theorem intact_iff (t : CComeTask) {data : List UInt8} (nonempty : data ≠ [])
    (datas : List (List UInt8)) (attempts : List Attempt) :
    t.Intact (t.writeAllClosing ((data :: datas).map callOf) attempts) ↔
      t.Spared (data :: datas) attempts := by
  constructor
  · intro intact
    by_contra broken
    simp only [Spared, not_or] at broken
    obtain ⟨up, written, broken⟩ := broken
    replace up := Option.isSome_iff_ne_none.mpr up
    replace written : (attempts.headD {}).written = true := by simpa using written
    simp only [Unbroken, not_or] at broken
    obtain ⟨stays, broken⟩ := broken
    have up' := (t.append_bev_isSome data).trans up
    have broken' : ¬Unbroken datas attempts.tail := fun rest => broken ⟨written, nonempty, rest⟩
    obtain ⟨bytes, failed⟩ := writeAllClosing_broken up' broken'
    have result : t.writeAllClosing ((data :: datas).map callOf) attempts = _ :=
      writeAllClosing_cons_up up stays
    rw [if_pos ⟨written, nonempty⟩, failed, append_append] at result
    have same := intact _ result ((t.append_bev_isSome _).trans up)
    rw [append_output up] at same
    simp [nonempty] at same
  · intro spared t' result up'
    rw [List.map_cons] at result
    have up := writeAllClosing_up result up'
    rcases spared with down | fails | unbroken
    · simp [down] at up
    · by_cases closed : (attempts.headD {}).closed
      · simp [(writeAllClosing_cons_down (.inr closed) result).2] at up'
      · have unwritten : ¬((attempts.headD {}).written ∧ data ≠ []) := by
          rw [fails]
          simp
        rw [writeAllClosing_cons_up up closed, if_neg unwritten] at result
        grind
    · have down := writeAllClosing_unbroken up unbroken (List.map_cons ▸ result)
      simp [down] at up'

end CComeTask

/-! ## The stream -/

/-- An object with what it has reported as sent. -/
structure Outgoing (codec : HeadCodec) where
  conn : CComeTask
  sent : List (OutFrame codec) := []

/-- What happens to the object. -/
inductive Move (codec : HeadCodec) where
  | sendMsg (f : OutFrame codec) (attempts : List Attempt)
  | closeBev
  | connect (lib : Libevent)

namespace Outgoing

variable {codec : HeadCodec}

def machine : Machine (Outgoing codec) (Move codec) where
  step s
    | .sendMsg f attempts =>
      match s.conn.sendMsgClosing codec f.head (.ofBytes f.body) attempts with
      | none => none
      | some (ok, conn) => some { conn := conn, sent := if ok then s.sent ++ [f] else s.sent }
    | .closeBev => s.conn.closeBev.map fun conn => { s with conn := conn }
    | .connect lib => some { s with conn := (s.conn.connect lib).2 }

/-- A send that fails leaves no part of its frame behind. -/
def StepIntact (s : Outgoing codec) : Move codec → Prop
  | .sendMsg f attempts =>
    s.conn.Intact (s.conn.sendMsgClosing codec f.head (.ofBytes f.body) attempts)
  | _ => True

/-- No write fails after the first, unless the connection is closed. -/
def StepSpared (s : Outgoing codec) : Move codec → Prop
  | .sendMsg f attempts => s.conn.Spared f.pieces attempts
  | _ => True

/-- The output of a connection that is up is the last messages reported as sent. -/
def WholeFrames (s : Outgoing codec) : Prop :=
  s.conn.bev.isSome → ∃ frames, frames <:+ s.sent ∧ s.conn.output = frames.flatMap OutFrame.bytes

theorem stepIntact_iff (s : Outgoing codec) (move : Move codec) :
    s.StepIntact move ↔ s.StepSpared move := by
  cases move with
  | sendMsg f attempts =>
    exact CComeTask.intact_iff s.conn (by simp [le32]) [f.headStr, f.body] attempts
  | closeBev => exact Iff.rfl
  | connect lib => exact Iff.rfl

/-- A new bufferevent has written nothing, and one that is there keeps its output. -/
theorem connect_output (lib : Libevent) (t : CComeTask) :
    (t.connect lib).2.output = t.output := by
  unfold CComeTask.connect
  extract_lets t₁ t₂
  have output : t₂.output = t.output := by
    rcases bev : t.bev with _ | b
    · have fresh : t₂.bev = if lib.bufferevent_new then some {} else none := by
        simp [t₂, t₁, bev]
      rw [CComeTask.output, CComeTask.output, fresh, bev]
      split <;> rfl
    · simp [t₂, t₁, bev, CComeTask.output]
  rcases bev : t₂.bev with _ | b
  · exact output
  · dsimp only
    split
    · exact output
    · rw [← output, CComeTask.output, CComeTask.output, bev]
      rfl

theorem step_wholeFrames :
    (machine : Machine (Outgoing codec) (Move codec)).Preserves StepIntact WholeFrames := by
  intro s move t whole intact step up
  cases move with
  | sendMsg f attempts =>
    simp only [machine] at step
    split at step
    · cases step
    next ok conn result =>
      obtain rfl := Option.some.inj step
      have before := CComeTask.writeAllClosing_up result up
      obtain ⟨frames, suffix, output⟩ := whole before
      cases ok with
      | true =>
        have written : conn = s.conn.append f.pieces.flatten :=
          CComeTask.writeAllClosing_true before result
        refine ⟨frames ++ [f], ?_, ?_⟩
        · obtain ⟨earlier, sent⟩ := suffix
          exact ⟨earlier, by simp [← sent]⟩
        · simp [written, CComeTask.append_output before, output, OutFrame.pieces, OutFrame.bytes]
      | false =>
        have same := intact conn result up
        exact ⟨frames, suffix, same.trans output⟩
  | closeBev =>
    obtain ⟨conn, closed, rfl⟩ := Option.map_eq_some_iff.mp step
    have down : conn.bev = none := by
      simp only [CComeTask.closeBev] at closed
      grind
    simp [down] at up
  | connect lib =>
    obtain rfl := Option.some.inj step
    rw [connect_output]
    rcases bev : s.conn.bev with _ | b
    · exact ⟨[], List.nil_suffix, by simp [CComeTask.output, bev]⟩
    · exact whole (by simp [bev])

/-- Sends that fail leave nothing behind exactly when no write after the first fails on a
connection that is open, and then the output of the connection is whole frames. -/
theorem failed_sends_intact (s : Outgoing codec) (moves : List (Move codec)) :
    (machine.Along StepIntact s moves ↔ machine.Along StepSpared s moves) ∧
      (s.WholeFrames → machine.Along StepSpared s moves →
        ∀ t, machine.run s moves = some t → t.WholeFrames) := by
  refine ⟨⟨?_, ?_⟩, ?_⟩
  · exact Machine.Along.imp _ fun s move => (stepIntact_iff s move).mp
  · exact Machine.Along.imp _ fun s move => (stepIntact_iff s move).mpr
  · intro whole spared t run
    have intact := Machine.Along.imp _ (fun s move => (stepIntact_iff s move).mpr) spared
    exact machine.run_invariant step_wholeFrames whole intact run

open Library.Wire.Reader

/-- A message without a body: all writes that are made succeed, the frame is in the output, and
`sendMsg` returns false. -/
theorem bodiless_send_not_intact :
    ¬machine.Along StepIntact (⟨{ bev := some {} }, []⟩ : Outgoing CMsgHead.codec)
      [.sendMsg ⟨{ msgType := CMsgType.MSG_HEART_REQ }, [], by decide, by decide⟩ []] := by
  rintro ⟨intact, -⟩
  have same := intact _ rfl rfl
  exact absurd same (by decide)

end Outgoing

end MicroserviceFramework.Platform
