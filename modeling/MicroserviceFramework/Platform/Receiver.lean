import MicroserviceFramework.Library.Machine
import MicroserviceFramework.Platform.CMsgHead

/-!
# The receiving half of a connection

The private members `head_`, `msg_` and `pbHead_` of `CMsgEvent` with the unread input of its
bufferevent, and the functions of `cmsgevent.cpp` that work on them: `recvMsg`, `getMsg`,
`clear` and the loop `readCb()`. Without a bufferevent there is no input, which is the `0` that
`readMsg` returns then.

A handler does not touch the receive state, so a dispatch is recorded as the pair that
`readCb(pbHead_, msg)` is called with. The two buffers are cleared after it.
-/

namespace MicroserviceFramework.Platform

open Library

/-- An unsigned little-endian number. -/
def leValue : List UInt8 → Nat
  | [] => 0
  | b :: bs => b.toNat + 256 * leValue bs

/-- The `int` whose low bytes these are, the others being zero. -/
def leInt (bytes : List UInt8) : Int := (Int32.ofInt (leValue bytes)).toInt

/-- The four bytes of a length field. -/
def le32 (n : Nat) : List UInt8 :=
  [UInt8.ofNat n, UInt8.ofNat (n / 256), UInt8.ofNat (n / 65536), UInt8.ofNat (n / 16777216)]

@[simp] theorem length_le32 (n : Nat) : (le32 n).length = 4 := rfl

@[simp] theorem take_le32_append (n : Nat) (rest : List UInt8) :
    (le32 n ++ rest).take 4 = le32 n := rfl

@[simp] theorem drop_le32_append (n : Nat) (rest : List UInt8) :
    (le32 n ++ rest).drop 4 = rest := rfl

theorem leInt_le32 {n : Nat} (bound : n < 2 ^ 31) : leInt (le32 n) = n := by
  have value : leValue (le32 n) = n := by simp [le32, leValue]; omega
  rw [leInt, value]
  exact Int32.toInt_ofInt_of_le (by omega) (by omega)

structure Receiver where
  input : List UInt8 := []
  head : CMsg := {}
  msg : CMsg := {}
  pbHead : Option CMsgHead := none
  deriving DecidableEq, Repr

/-- What a handler is called with. -/
structure Dispatch where
  head : CMsgHead
  msg : CMsg
  deriving DecidableEq, Repr

/-- What the handler sees: the header and the bytes of the body. -/
def Dispatch.content (d : Dispatch) : CMsgHead × List UInt8 := (d.head, d.msg.bytes)

namespace Receiver

/-- `bufferevent_read`: the next bytes of the input, at most `size` of them. -/
def readMsg (r : Receiver) (size : Int) : List UInt8 × Receiver :=
  (r.input.take size.toNat, { r with input := r.input.drop size.toNat })

def clear (r : Receiver) : Receiver := { r with head := r.head.clear, msg := r.msg.clear }

def getMsg (r : Receiver) : Option CMsg := if r.msg.recved then some r.msg else none

/-- `recvMsg`, 1: the header length. It is read over `head_.size_`, which is zero here, so
fewer than four bytes give a length too. -/
def recvSize (r : Receiver) : Bool × Receiver :=
  if r.head.size ≠ 0 then (true, r)
  else
    let (bytes, r) := r.readMsg 4
    let r := { r with head := { r.head with size := leInt bytes } }
    if bytes = [] ∨ r.head.size ≤ 0 then (false, r)
    else
      let (ok, head) := r.head.alloc r.head.size
      (ok, { r with head := head })

/-- `recvMsg`, 2, after the read: a header that is complete is parsed, and the buffer for the body is
made. A result is returned at once; without one the body is next. -/
def headReceived (codec : HeadCodec) (r : Receiver) : Option Bool × Receiver :=
  if !r.head.recved then (some true, r)
  else
    let (ok, pbHead) := codec.parse r.head.bytes
    let r := { r with pbHead := some pbHead }
    if !ok then (some false, r)
    else if pbHead.msgSize = 0 then
      (some true, { r with msg := { r.msg with type := pbHead.msgType, size := 0 } })
    else
      let (ok, msg) := r.msg.alloc pbHead.msgSize.toInt
      if !ok then (some false, r)
      else (none, { r with msg := { msg with type := pbHead.msgType } })

/-- `recvMsg`, 2: the header. -/
def recvHead (codec : HeadCodec) (r : Receiver) : Option Bool × Receiver :=
  if r.head.recved then (none, r)
  else
    let (bytes, r) := r.readMsg (r.head.size - r.head.recvSize)
    if bytes = [] then (some true, r)
    else headReceived codec { r with head := r.head.store bytes }

/-- `recvMsg`, 3: the body. -/
def recvBody (r : Receiver) : Receiver :=
  if r.msg.recved then r
  else
    let (bytes, r) := r.readMsg (r.msg.size - r.msg.recvSize)
    if bytes = [] then r else { r with msg := r.msg.store bytes }

def recvMsg (codec : HeadCodec) (r : Receiver) : Bool × Receiver :=
  match r.recvSize with
  | (false, r) => (false, r)
  | (true, r) =>
    match r.recvHead codec with
    | (some result, r) => (result, r)
    | (none, r) => (true, r.recvBody)

/-- How one turn of the loop in `readCb()` ends, with the state `recvMsg` left. -/
inductive Turn where
  /-- `recvMsg` failed: clear and return. -/
  | fail (r : Receiver)
  /-- No header yet or no complete message: return. -/
  | wait (r : Receiver)
  /-- Call the handler, clear and go round again. -/
  | dispatch (r : Receiver) (d : Dispatch)
  deriving DecidableEq, Repr

def turn (codec : HeadCodec) (r : Receiver) : Turn :=
  match r.recvMsg codec with
  | (false, r) => .fail r
  | (true, r) =>
    match r.pbHead, r.getMsg with
    | some head, some msg => .dispatch r ⟨head, msg⟩
    | _, _ => .wait r

/-- The loop, for at most `n` turns; `readCb_eq` shows that `readCb` allows it enough. -/
def readLoop (codec : HeadCodec) : Nat → Receiver → List Dispatch × Receiver
  | 0, r => ([], r)
  | n + 1, r =>
    match r.turn codec with
    | .fail r => ([], r.clear)
    | .wait r => ([], r)
    | .dispatch r d => (d :: (readLoop codec n r.clear).1, (readLoop codec n r.clear).2)

def readCb (codec : HeadCodec) (r : Receiver) : List Dispatch × Receiver :=
  readLoop codec (r.input.length + 2) r

/-- A chunk arrives and the read callback runs. -/
def recv (codec : HeadCodec) (r : Receiver) (chunk : List UInt8) : List Dispatch × Receiver :=
  readCb codec { r with input := r.input ++ chunk }

/-! ## The loop ends -/

theorem recvSize_input (r : Receiver) : r.recvSize.2.input <:+ r.input := by
  unfold recvSize readMsg
  split
  · exact List.suffix_rfl
  · dsimp only
    split
    · exact List.drop_suffix _ _
    · exact List.drop_suffix _ _

theorem recvHead_input (codec : HeadCodec) (r : Receiver) :
    (r.recvHead codec).2.input <:+ r.input := by
  unfold recvHead headReceived readMsg
  split
  · exact List.suffix_rfl
  · dsimp only
    repeat' split
    all_goals exact List.drop_suffix _ _

theorem recvBody_input (r : Receiver) : r.recvBody.input <:+ r.input := by
  unfold recvBody readMsg
  split
  · exact List.suffix_rfl
  · dsimp only
    split <;> exact List.drop_suffix _ _

theorem recvMsg_input (codec : HeadCodec) (r : Receiver) :
    (r.recvMsg codec).2.input <:+ r.recvSize.2.input := by
  unfold recvMsg
  split
  next r₁ size => simp [size]
  next r₁ size =>
    rw [size]
    have head := recvHead_input codec r₁
    split
    next result r₂ stage => rw [stage] at head; exact head
    next r₂ stage => rw [stage] at head; exact (recvBody_input r₂).trans head

/-- A length field that is accepted takes at least one byte. -/
theorem recvSize_consumes {r : Receiver} (fresh : r.head.size = 0) (ok : r.recvSize.1 = true) :
    r.recvSize.2.input.length < r.input.length := by
  unfold recvSize readMsg at ok ⊢
  simp only [fresh, ne_eq, not_true_eq_false, if_false] at ok ⊢
  split at ok
  · simp at ok
  next bytes =>
    have nonempty : r.input ≠ [] := by rintro empty; simp [empty] at bytes
    have pos := List.length_pos_of_ne_nil nonempty
    rw [if_neg bytes]
    simp only [List.length_drop]
    omega

theorem recvMsg_of_recvSize_fail {codec : HeadCodec} {r : Receiver} (fail : r.recvSize.1 = false) :
    (r.recvMsg codec).1 = false := by
  unfold recvMsg
  split
  · rfl
  next r₁ size => simp [size] at fail

/-- What a turn that dispatches uses up. -/
def pending (r : Receiver) : Nat := r.input.length + if r.head.size = 0 then 0 else 1

theorem pending_clear_lt {codec : HeadCodec} {r r' : Receiver} {d : Dispatch}
    (step : r.turn codec = .dispatch r' d) : r'.clear.pending < r.pending := by
  have received : (r.recvMsg codec).1 = true ∧ (r.recvMsg codec).2 = r' := by
    unfold turn at step
    split at step
    · simp at step
    next r₁ recv =>
      split at step
      · simp only [Turn.dispatch.injEq] at step
        simp [recv, step.1]
      · simp at step
  obtain ⟨ok, rfl⟩ := received
  have shorter := (recvMsg_input codec r).length_le
  have size : r.recvSize.1 = true := by
    by_contra fail
    simp [recvMsg_of_recvSize_fail (Bool.not_eq_true _ ▸ fail)] at ok
  have cleared : (r.recvMsg codec).2.clear.pending = (r.recvMsg codec).2.input.length := by
    simp [pending, clear, CMsg.clear]
  rw [cleared, pending]
  split
  next fresh => have := recvSize_consumes fresh size; omega
  next => have := (recvSize_input r).length_le; omega

/-- Fuel beyond `pending` changes nothing. -/
theorem readLoop_stable (codec : HeadCodec) (n m : Nat) (r : Receiver) (left : r.pending < n)
    (right : r.pending < m) : readLoop codec n r = readLoop codec m r := by
  induction n generalizing m r with
  | zero => omega
  | succ n ih =>
    obtain ⟨m, rfl⟩ : ∃ k, m = k + 1 := ⟨m - 1, by omega⟩
    simp only [readLoop]
    split
    · rfl
    · rfl
    next r' d step =>
      have less := pending_clear_lt step
      rw [ih m r'.clear (by omega) (by omega)]

/-- The loop of `readCb()`, turn by turn. -/
theorem readCb_eq (codec : HeadCodec) (r : Receiver) :
    readCb codec r = match r.turn codec with
      | .fail r' => ([], r'.clear)
      | .wait r' => ([], r')
      | .dispatch r' d => (d :: (readCb codec r'.clear).1, (readCb codec r'.clear).2) := by
  conv_lhs => rw [readCb, readLoop]
  split
  · rfl
  · rfl
  next r' d step =>
    have less := pending_clear_lt step
    have enough : r.pending ≤ r.input.length + 1 := by unfold pending; split <;> omega
    have again : r'.clear.pending < r'.clear.input.length + 2 := by
      unfold pending; split <;> omega
    rw [readLoop_stable codec _ _ r'.clear (by omega) again, readCb]

end Receiver

end MicroserviceFramework.Platform
