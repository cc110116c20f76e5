import MicroserviceFramework.Platform.Receiver

/-!
# Reads stay within their buffers

What `recvMsg` reads goes into the blocks of `head_` and `msg_`, which are as large as the frames
say. A `Read` is one such `readMsg`, and the receive functions are given once more with their reads
in the result: here it is the `Read` that says which bytes come and where in the block they go. With
the reads left out they are the functions of the receiver, so these are its reads.

Whatever arrives, and whenever the read callback runs or the buffers are cleared, each read asks for
what is missing in its buffer and no more, and leaves the block as long as it was.
-/

namespace MicroserviceFramework.Platform

open Library

/-- One `readMsg(data_ + offset, asked)` for a buffer, and the bytes it returned. -/
structure Read where
  buffer : CMsg
  offset : Int
  asked : Int
  bytes : List UInt8
  deriving DecidableEq, Repr

/-- The buffer after the read and after `recvSize_ += len`. -/
def Read.stored (read : Read) : CMsg :=
  { read.buffer with
    data := read.buffer.data.map fun block => overwrite block read.offset.toNat read.bytes
    recvSize := read.buffer.recvSize + read.bytes.length }

theorem overwrite_length {block bytes : List UInt8} {offset : Nat}
    (fits : offset + bytes.length ≤ block.length) :
    (overwrite block offset bytes).length = block.length := by
  simp only [overwrite, List.length_append, List.length_take, List.length_drop]
  omega

namespace CMsg

/-- What has arrived is within the size, and the size within the limit and the block. -/
structure Within (m : CMsg) : Prop where
  nonneg : 0 ≤ m.recvSize
  received : m.recvSize ≤ m.size
  limit : m.size ≤ maxMsgSize
  allocated : 0 < m.size → ∃ block, m.data = some block ∧ m.size ≤ block.length

end CMsg

namespace CMsg.Within

variable {m : CMsg}

theorem empty : ({} : CMsg).Within := by
  refine ⟨by decide, by decide, by decide, ?_⟩
  intro pos
  exact absurd pos (by decide)

/-- A buffer that `alloc` accepts. -/
theorem alloc {m' : CMsg} {n : Int} (accepted : m.alloc n = (true, m')) :
    m'.Within ∧ 0 < m'.size ∧ m'.recvSize = 0 := by
  unfold CMsg.alloc at accepted
  split at accepted
  · cases accepted
  next range =>
    obtain rfl := (Prod.mk.inj accepted).2
    rw [not_or, Int.not_le, Int.not_lt] at range
    refine ⟨⟨Int.le_refl 0, Int.le_of_lt range.1, range.2, fun _ => ⟨_, rfl, ?_⟩⟩, range.1, rfl⟩
    simp only [List.length_replicate]
    omega

/-- Bytes that were missing are stored. -/
theorem store (within : m.Within) {bytes : List UInt8} (missing : bytes.length ≤ m.size - m.recvSize) :
    (m.store bytes).Within := by
  obtain ⟨nonneg, received, limit, allocated⟩ := within
  refine ⟨?_, ?_, limit, fun pos => ?_⟩
  · simp only [CMsg.store]
    omega
  · simp only [CMsg.store]
    omega
  · obtain ⟨block, data, enough⟩ := allocated pos
    refine ⟨overwrite block m.recvSize.toNat bytes, by rw [CMsg.store, data, Option.map_some], ?_⟩
    rw [overwrite_length (by omega)]
    exact enough

/-- An incomplete buffer lacks some bytes. -/
theorem lacks (within : m.Within) (incomplete : m.recved = false) : m.recvSize < m.size := by
  obtain ⟨nonneg, received, -, -⟩ := within
  have notNegative : ¬m.size < 0 := by omega
  simp only [CMsg.recved, notNegative, if_false, beq_eq_false_iff_ne, ne_eq] at incomplete
  omega

end CMsg.Within

/-- The read is one of the missing bytes, at their place in the block, and it keeps to the block. -/
structure Read.Safe (read : Read) : Prop where
  nonneg : 0 ≤ read.buffer.recvSize
  received : read.buffer.recvSize < read.buffer.size
  limit : read.buffer.size ≤ maxMsgSize
  allocated : ∃ block, read.buffer.data = some block ∧ read.buffer.size ≤ block.length
  offset : read.offset = read.buffer.recvSize
  asked : read.asked = read.buffer.size - read.buffer.recvSize
  inside : read.offset + read.bytes.length ≤ read.buffer.size
  kept : read.stored.data.map (·.length) = read.buffer.data.map (·.length)

namespace Receiver

variable (codec : HeadCodec)

/-! ## The reads of the receive functions -/

/-- `readMsg(buffer.data_ + offset, asked)`. -/
def readData (buffer : CMsg) (offset asked : Int) (r : Receiver) : Read × Receiver :=
  (⟨buffer, offset, asked, (r.readMsg asked).1⟩, (r.readMsg asked).2)

/-- `recvMsg`, 2, with its reads. -/
def recvHeadReads (r : Receiver) : List Read × Option Bool × Receiver :=
  if r.head.recved then ([], none, r)
  else
    let (read, r) := r.readData r.head r.head.recvSize (r.head.size - r.head.recvSize)
    if read.bytes = [] then ([read], some true, r)
    else ([read], headReceived codec { r with head := read.stored })

/-- `recvMsg`, 3, with its reads. -/
def recvBodyReads (r : Receiver) : List Read × Receiver :=
  if r.msg.recved then ([], r)
  else
    let (read, r) := r.readData r.msg r.msg.recvSize (r.msg.size - r.msg.recvSize)
    if read.bytes = [] then ([read], r) else ([read], { r with msg := read.stored })

/-- `recvMsg` with its reads into the two blocks. The length of a header is read over `size_`. -/
def recvMsgReads (r : Receiver) : List Read × Bool × Receiver :=
  match r.recvSize with
  | (false, r) => ([], false, r)
  | (true, r) =>
    match recvHeadReads codec r with
    | (reads, some result, r) => (reads, result, r)
    | (reads, none, r) => (reads ++ (recvBodyReads r).1, true, (recvBodyReads r).2)

theorem recvHeadReads_snd (r : Receiver) : (recvHeadReads codec r).2 = r.recvHead codec := by
  unfold recvHeadReads recvHead readData
  split
  · rfl
  · dsimp only
    split <;> rfl

theorem recvBodyReads_snd (r : Receiver) : (recvBodyReads r).2 = r.recvBody := by
  unfold recvBodyReads recvBody readData
  split
  · rfl
  · dsimp only
    split <;> rfl

/-- The reads aside, it is the `recvMsg` of the receiver. -/
theorem recvMsgReads_snd (r : Receiver) : (recvMsgReads codec r).2 = r.recvMsg codec := by
  unfold recvMsgReads recvMsg
  rcases r.recvSize with ⟨_ | _, r₁⟩
  · rfl
  · have head := recvHeadReads_snd codec r₁
    dsimp only
    rw [← head]
    rcases recvHeadReads codec r₁ with ⟨reads, _ | result, r₂⟩
    · exact congrArg (Prod.mk true) (recvBodyReads_snd r₂)
    · rfl

/-- `readLoop`, with its reads. A message of a type that no callback is registered for is dropped
by another `clear()`. -/
def readLoopReads (known : CMsgType → Bool) : Nat → Receiver → List Read × Receiver
  | 0, r => ([], r)
  | n + 1, r =>
    let reads := (recvMsgReads codec r).1
    match r.turn codec with
    | .fail r' => (reads, r'.clear)
    | .wait r' => (reads, r')
    | .dispatch r' d =>
      let r' := if known d.head.msgType then r' else r'.clear
      (reads ++ (readLoopReads known n r'.clear).1, (readLoopReads known n r'.clear).2)

theorem readLoopReads_snd (known : CMsgType → Bool) (n : Nat) (r : Receiver) :
    (readLoopReads codec known n r).2 = (readLoop codec n r).2 := by
  induction n generalizing r with
  | zero => rfl
  | succ n ih =>
    rw [readLoopReads, readLoop]
    cases r.turn codec with
    | fail r' => rfl
    | wait r' => rfl
    | dispatch r' d =>
      have same : (if known d.head.msgType then r' else r'.clear).clear = r'.clear := by
        split <;> rfl
      simp only [same, ih]

inductive Event where
  /-- Bytes arrive in the bufferevent. -/
  | arrive (chunk : List UInt8)
  /-- The bufferevent is freed. -/
  | lost
  | readCb
  | clear
  deriving DecidableEq, Repr

def handle (known : CMsgType → Bool) (r : Receiver) : Event → List Read × Receiver
  | .arrive chunk => ([], { r with input := r.input ++ chunk })
  | .lost => ([], { r with input := [] })
  | .readCb => readLoopReads codec known (r.input.length + 2) r
  | .clear => ([], r.clear)

/-- The receiver after an event, without a record of the reads. -/
def after (r : Receiver) : Event → Receiver
  | .arrive chunk => { r with input := r.input ++ chunk }
  | .lost => { r with input := [] }
  | .readCb => (readCb codec r).2
  | .clear => r.clear

theorem handle_snd (known : CMsgType → Bool) (r : Receiver) (event : Event) :
    (handle codec known r event).2 = after codec r event := by
  cases event with
  | readCb => exact readLoopReads_snd codec known _ r
  | _ => rfl

/-! ## The invariant -/

/-- Both buffers are within their bounds, and `msg_` is empty until a header is complete. -/
structure Bounded (r : Receiver) : Prop where
  head : r.head.Within
  msg : r.msg.Within
  fresh : r.head.size = 0 ∨ r.head.recved = false → r.msg.recvSize = 0

theorem readMsg_length (r : Receiver) {asked : Int} (pos : 0 ≤ asked) :
    ((r.readMsg asked).1.length : Int) ≤ asked := by
  simp only [readMsg, List.length_take]
  omega

/-- The read into a buffer that is not complete. -/
theorem readData_safe {buffer : CMsg} (within : buffer.Within) (incomplete : buffer.recved = false)
    (r : Receiver) : (r.readData buffer buffer.recvSize (buffer.size - buffer.recvSize)).1.Safe := by
  have lacks := within.lacks incomplete
  obtain ⟨nonneg, -, limit, allocated⟩ := within
  have short := readMsg_length r (show 0 ≤ buffer.size - buffer.recvSize by omega)
  obtain ⟨block, data, enough⟩ := allocated (by omega)
  exact {
    nonneg := nonneg
    received := lacks
    limit := limit
    allocated := ⟨block, data, enough⟩
    offset := rfl
    asked := rfl
    inside := by
      dsimp only [readData]
      omega
    kept := by
      dsimp only [readData, Read.stored]
      rw [data, Option.map_some, Option.map_some, Option.map_some, overwrite_length (by omega)] }

namespace Bounded

variable {codec} {r r' : Receiver}

theorem clear (r : Receiver) : Bounded r.clear := ⟨.empty, .empty, fun _ => rfl⟩

theorem input (bounded : Bounded r) (input : List UInt8) : Bounded { r with input := input } :=
  ⟨bounded.head, bounded.msg, bounded.fresh⟩

/-- A length that is accepted, now or before. -/
theorem recvSize (bounded : Bounded r) (accepted : r.recvSize = (true, r')) :
    Bounded r' ∧ 0 < r'.head.size := by
  unfold Receiver.recvSize at accepted
  split at accepted
  next sized =>
    obtain rfl := (Prod.mk.inj accepted).2
    have received := bounded.head.received
    have nonneg := bounded.head.nonneg
    exact ⟨bounded, by omega⟩
  next fresh =>
    dsimp only at accepted
    split at accepted
    · cases accepted
    next read =>
      rcases block : CMsg.alloc _ _ with ⟨ok, head⟩
      rw [block] at accepted
      obtain ⟨rfl, rfl⟩ := Prod.mk.inj accepted
      obtain ⟨within, pos, empty⟩ := CMsg.Within.alloc block
      have none_read := bounded.fresh (.inl (not_not.mp fresh))
      exact ⟨⟨within, bounded.msg, fun _ => none_read⟩, pos⟩

/-- The header grows; when it is complete, `msg_` is made ready for the body. -/
theorem recvHead (bounded : Bounded r) (codec : HeadCodec) : Bounded (r.recvHead codec).2 := by
  unfold Receiver.recvHead
  cases complete : r.head.recved with
  | true => exact bounded
  | false =>
    have lacks := bounded.head.lacks complete
    have none_read := bounded.fresh (.inr complete)
    have short := readMsg_length r (show 0 ≤ r.head.size - r.head.recvSize by omega)
    have within := bounded.head.store short
    have size_nonneg := bounded.msg.nonneg
    rcases read : r.readMsg (r.head.size - r.head.recvSize) with ⟨bytes, r₁⟩
    rw [read] at within
    obtain ⟨rfl, rfl⟩ := Prod.mk.inj read
    simp only [Bool.false_eq_true, if_false]
    split
    · exact bounded.input _
    unfold headReceived
    split
    · exact ⟨within, bounded.msg, fun _ => none_read⟩
    dsimp only
    split
    · exact ⟨within, bounded.msg, fun _ => none_read⟩
    split
    · have none_left : r.msg.recvSize ≤ 0 := Int.le_of_eq none_read
      exact ⟨within, ⟨size_nonneg, none_left, (by decide : (0 : Int) ≤ maxMsgSize),
        fun pos => absurd pos (Int.lt_irrefl 0)⟩, fun _ => none_read⟩
    · rcases block : CMsg.alloc _ _ with ⟨ok, msg⟩
      cases ok with
      | false => exact ⟨within, bounded.msg, fun _ => none_read⟩
      | true =>
        obtain ⟨ready, pos, empty⟩ := CMsg.Within.alloc block
        exact ⟨within, ⟨ready.nonneg, ready.received, ready.limit, ready.allocated⟩, fun _ => empty⟩

/-- The body is next only after a complete header. -/
theorem recvHead_complete (next : r.recvHead codec = (none, r')) : r'.head.recved = true := by
  unfold Receiver.recvHead headReceived at next
  grind

theorem recvHead_size (codec : HeadCodec) (r : Receiver) :
    (r.recvHead codec).2.head.size = r.head.size := by
  unfold Receiver.recvHead headReceived
  grind [readMsg, CMsg.store]

theorem recvBody (bounded : Bounded r) (sized : 0 < r.head.size)
    (complete : r.head.recved = true) : Bounded r.recvBody := by
  unfold Receiver.recvBody
  cases whole : r.msg.recved with
  | true => exact bounded
  | false =>
    have lacks := bounded.msg.lacks whole
    have short := readMsg_length r (show 0 ≤ r.msg.size - r.msg.recvSize by omega)
    have within := bounded.msg.store short
    simp only [Bool.false_eq_true, if_false]
    split
    · exact bounded.input _
    · refine ⟨bounded.head, within, fun fresh => ?_⟩
      rcases fresh with zero | incomplete
      · exact absurd zero (Int.ne_of_gt sized)
      · exact absurd (complete.symm.trans incomplete) (by decide)

/-- A `recvMsg` that succeeds restores the invariant; after one that fails comes `clear()`. -/
theorem recvMsg (bounded : Bounded r) (received : r.recvMsg codec = (true, r')) : Bounded r' := by
  unfold Receiver.recvMsg at received
  rcases size : r.recvSize with ⟨ok, r₁⟩
  rw [size] at received
  cases ok with
  | false => cases received
  | true =>
    obtain ⟨bounded₁, sized⟩ := bounded.recvSize size
    have bounded₂ := bounded₁.recvHead codec
    have sized₂ := recvHead_size codec r₁
    rcases head : r₁.recvHead codec with ⟨result, r₂⟩
    rw [head] at bounded₂ sized₂
    simp only [head] at received
    cases result with
    | some result =>
      obtain rfl := (Prod.mk.inj received).2
      exact bounded₂
    | none =>
      obtain rfl := (Prod.mk.inj received).2
      exact bounded₂.recvBody (sized₂ ▸ sized) (recvHead_complete head)

theorem turn_wait (bounded : Bounded r) (turn : r.turn codec = .wait r') : Bounded r' := by
  unfold Receiver.turn at turn
  rcases received : r.recvMsg codec with ⟨ok, r₁⟩
  rw [received] at turn
  cases ok with
  | false => cases turn
  | true =>
    dsimp only at turn
    split at turn
    · cases turn
    · obtain rfl := Turn.wait.inj turn
      exact bounded.recvMsg received

end Bounded

/-! ## Every read of a run -/

theorem recvHeadReads_safe {r : Receiver} (bounded : Bounded r) (codec : HeadCodec) :
    ∀ read ∈ (recvHeadReads codec r).1, read.Safe := by
  unfold recvHeadReads
  cases complete : r.head.recved with
  | true => simp
  | false =>
    have safe := readData_safe bounded.head complete r
    intro read mem
    rw [if_neg Bool.false_ne_true] at mem
    dsimp only at mem
    split at mem <;>
      · obtain rfl := List.mem_singleton.mp mem
        exact safe

theorem recvBodyReads_safe {r : Receiver} (bounded : Bounded r) :
    ∀ read ∈ (recvBodyReads r).1, read.Safe := by
  unfold recvBodyReads
  cases whole : r.msg.recved with
  | true => simp
  | false =>
    have safe := readData_safe bounded.msg whole r
    intro read mem
    rw [if_neg Bool.false_ne_true] at mem
    dsimp only at mem
    split at mem <;>
      · obtain rfl := List.mem_singleton.mp mem
        exact safe

theorem recvMsgReads_safe {r : Receiver} (bounded : Bounded r) (codec : HeadCodec) :
    ∀ read ∈ (recvMsgReads codec r).1, read.Safe := by
  unfold recvMsgReads
  rcases size : r.recvSize with ⟨_ | _, r₁⟩
  · simp
  · obtain ⟨bounded₁, -⟩ := bounded.recvSize size
    have bounded₂ := bounded₁.recvHead codec
    have inHead := recvHeadReads_safe bounded₁ codec
    rw [← recvHeadReads_snd] at bounded₂
    dsimp only
    rcases logged : recvHeadReads codec r₁ with ⟨reads, _ | result, r₂⟩ <;>
      rw [logged] at inHead bounded₂
    · intro read mem
      rcases List.mem_append.mp mem with first | second
      · exact inHead read first
      · exact recvBodyReads_safe bounded₂ read second
    · exact inHead

theorem readLoopReads_safe (codec : HeadCodec) (known : CMsgType → Bool) (n : Nat) {r : Receiver}
    (bounded : Bounded r) : (∀ read ∈ (readLoopReads codec known n r).1, read.Safe) ∧
      Bounded (readLoopReads codec known n r).2 := by
  induction n generalizing r with
  | zero => exact ⟨by simp [readLoopReads], bounded⟩
  | succ n ih =>
    have safe := recvMsgReads_safe bounded codec
    rw [readLoopReads]
    cases turn : r.turn codec with
    | fail r' => exact ⟨safe, .clear r'⟩
    | wait r' => exact ⟨safe, bounded.turn_wait turn⟩
    | dispatch r' d =>
      obtain ⟨later, final⟩ := ih (Bounded.clear (if known d.head.msgType then r' else r'.clear))
      refine ⟨fun read mem => ?_, final⟩
      rcases List.mem_append.mp mem with now | after
      · exact safe read now
      · exact later read after

theorem handle_safe (codec : HeadCodec) (known : CMsgType → Bool) (r : Receiver) (event : Event)
    (bounded : Bounded r) : (∀ read ∈ (handle codec known r event).1, read.Safe) ∧
      Bounded (handle codec known r event).2 := by
  cases event with
  | arrive chunk => exact ⟨by simp [handle], bounded.input _⟩
  | lost => exact ⟨by simp [handle], bounded.input _⟩
  | readCb => exact readLoopReads_safe codec known _ bounded
  | clear => exact ⟨by simp [handle], .clear r⟩

/-- The record aside, the events do what the functions of the receiver do. -/
theorem transduce_handle (known : CMsgType → Bool) (r : Receiver) (events : List Event) :
    (transduce (handle codec known) r events).2 = events.foldl (after codec) r := by
  induction events generalizing r with
  | nil => rfl
  | cons event events ih => rw [transduce, List.foldl_cons, ← handle_snd codec known r, ih]

/-- The reads are those of `recvMsg`. Whatever arrives and however it is cut, every one of them is of
the missing bytes of its buffer and keeps to the block, and both buffers of the receiver are left
within their bounds. -/
theorem buffers_bounded (codec : HeadCodec) (known : CMsgType → Bool) (events : List Event) :
    (∀ r : Receiver, (recvMsgReads codec r).2 = r.recvMsg codec) ∧
      (transduce (handle codec known) {} events).2 = events.foldl (after codec) {} ∧
      (∀ read ∈ (transduce (handle codec known) {} events).1, read.Safe) ∧
      Bounded (events.foldl (after codec) {}) := by
  obtain ⟨safe, bounded⟩ := transduce_outputs
    (fun r event bounded => handle_safe codec known r event bounded) (Bounded.clear {}) events
  rw [transduce_handle] at bounded
  exact ⟨recvMsgReads_snd codec, transduce_handle codec known {} events, safe, bounded⟩

end Receiver

end MicroserviceFramework.Platform
