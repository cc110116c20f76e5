import MicroserviceFramework.Platform.Receiver

/-!
# The states a receiver can be in

Between two turns of `readCb()` the receive state is one of three: nothing of a frame has been
read, part of a header has, or a header and part of its body have. `pbHead_` is carried along
from whatever was parsed last. The lemmas say how a turn ends in each of them; they are all
that later modules use of `recvMsg`.
-/

namespace MicroserviceFramework.Platform.Receiver

/-- Between two frames. -/
def idle (pb : Option CMsgHead) (input : List UInt8) : Receiver := { input := input, pbHead := pb }

/-- Inside a header of `n` bytes. -/
def inHead (n : Nat) (got : List UInt8) (pb : Option CMsgHead) (input : List UInt8) : Receiver where
  input := input
  head := .filled n got
  pbHead := pb

/-- Inside a body of `n` bytes whose header is `p`, parsed from `hdr`. -/
def inBody (hdr : List UInt8) (p : CMsgHead) (n : Nat) (got input : List UInt8) : Receiver where
  input := input
  head := .filled hdr.length hdr
  msg := .filled n got p.msgType
  pbHead := some p

@[simp] theorem idle_input (pb : Option CMsgHead) (input : List UInt8) :
    (idle pb input).input = input := rfl

@[simp] theorem inHead_input (n : Nat) (got : List UInt8) (pb : Option CMsgHead)
    (input : List UInt8) : (inHead n got pb input).input = input := rfl

@[simp] theorem inBody_input (hdr : List UInt8) (p : CMsgHead) (n : Nat) (got input : List UInt8) :
    (inBody hdr p n got input).input = input := rfl

/-- A header length that `CMsg::alloc` accepts. -/
def Acceptable (n : Int) : Prop := 0 < n ∧ n ≤ maxMsgSize

instance (n : Int) : Decidable (Acceptable n) := inferInstanceAs (Decidable (_ ∧ _))

theorem acceptable_iff (n : Int) : Acceptable n ↔ 0 < n ∧ n ≤ 8192 := Iff.rfl

variable (codec : HeadCodec) (pb : Option CMsgHead) (input : List UInt8)

/-! ## How a turn ends -/

/-- The turn fails, and `clear` leaves `s`. -/
def Fails (r s : Receiver) : Prop := ∃ r', r.turn codec = .fail r' ∧ r'.clear = s

/-- The turn calls a handler with `d`, while `head` is in `head_`, and `clear` leaves `s`. -/
def Dispatches (r : Receiver) (head : CMsg) (d : Dispatch) (s : Receiver) : Prop :=
  ∃ r', r.turn codec = .dispatch r' d ∧ r'.head = head ∧ r'.clear = s

/-- The turn needs more bytes, and `s` is kept for them. -/
def Waits (r s : Receiver) : Prop := r.turn codec = .wait s

section Loop

variable {codec : HeadCodec} {r s : Receiver} {head : CMsg} {d : Dispatch}

theorem readCb_of_fails (fails : Fails codec r s) : readCb codec r = ([], s) := by
  obtain ⟨r', step, rfl⟩ := fails
  rw [readCb_eq, step]

theorem readCb_of_waits (waits : Waits codec r s) : readCb codec r = ([], s) := by
  rw [readCb_eq, waits]

theorem readCb_of_dispatches (dispatches : Dispatches codec r head d s) :
    readCb codec r = (d :: (readCb codec s).1, (readCb codec s).2) := by
  obtain ⟨r', step, -, rfl⟩ := dispatches
  rw [readCb_eq, step]

theorem readCb_congr (same : r.turn codec = s.turn codec) : readCb codec r = readCb codec s := by
  rw [readCb_eq, same, ← readCb_eq]

end Loop

theorem turn_of_fail {codec : HeadCodec} {r r' : Receiver} (recv : r.recvMsg codec = (false, r')) :
    r.turn codec = .fail r' := by
  rw [turn, recv]

theorem turn_of_recv {codec : HeadCodec} {r r' : Receiver} {p : CMsgHead} {msg : CMsg}
    (recv : r.recvMsg codec = (true, r')) (head : r'.pbHead = some p) (body : r'.getMsg = some msg) :
    r.turn codec = .dispatch r' ⟨p, msg⟩ := by
  rw [turn, recv]
  simp only [head, body]

theorem recvSize_inHead {n : Nat} (got : List UInt8) (pos : 0 < n) :
    (inHead n got pb input).recvSize = (true, inHead n got pb input) := by
  simp [recvSize, inHead, Nat.ne_of_gt pos]

theorem recvMsg_inBody {hdr : List UInt8} (headed : hdr ≠ []) (p : CMsgHead) (n : Nat)
    (got input : List UInt8) : (inBody hdr p n got input).recvMsg codec =
      (true, (inBody hdr p n got input).recvBody) := by
  have nonzero : (hdr.length : Int) ≠ 0 := by simpa using headed
  simp [recvMsg, recvSize, recvHead, inBody, headed]

/-! ## A turn between two frames -/

/-- Nothing to read is the case of no bytes. -/
theorem turn_idle_reject (reject : ¬Acceptable (leInt (input.take 4))) :
    Fails codec (idle pb input) (idle pb (input.drop 4)) := by
  rw [acceptable_iff] at reject
  have refused : leInt (input.take 4) ≤ 0 ∨ 8192 < leInt (input.take 4) := by omega
  have size : ∃ r, (idle pb input).recvSize = (false, r) ∧ r.clear = idle pb (input.drop 4) := by
    simp only [recvSize, readMsg, idle, ne_eq, not_true_eq_false, if_false,
      show Int.toNat 4 = 4 from rfl, CMsg.alloc_refuse _ refused]
    by_cases early : input.take 4 = [] ∨ leInt (input.take 4) ≤ 0
    · rw [if_pos early]
      exact ⟨_, rfl, rfl⟩
    · rw [if_neg early]
      exact ⟨_, rfl, rfl⟩
  obtain ⟨r, fail, clear⟩ := size
  exact ⟨r, by simp [turn, recvMsg, fail], clear⟩

theorem turn_idle_accept {n : Nat} (size : leInt (input.take 4) = n) (pos : 0 < n)
    (bound : n ≤ 8192) :
    (idle pb input).turn codec = (inHead n [] pb (input.drop 4)).turn codec := by
  have nonempty : input.take 4 ≠ [] := by
    intro empty
    rw [empty] at size
    have : (0 : Int) = n := size
    omega
  have first : (idle pb input).recvSize = (true, inHead n [] pb (input.drop 4)) := by
    have valid : ¬((n : Int) ≤ 0) := by omega
    simp only [recvSize, readMsg, idle, ne_eq, not_true_eq_false, if_false,
      show Int.toNat 4 = 4 from rfl, size, nonempty, valid, or_self, CMsg.alloc_accept _ pos bound]
    rfl
  simp [turn, recvMsg, first, recvSize_inHead _ _ _ pos]

/-! ## Reading what is missing -/

section Missing

variable {r : Receiver} {n : Nat} {got more rest : List UInt8}

/-- All that is there, if a buffer of `n` bytes lacks more. -/
theorem readMsg_short (short : got.length + r.input.length < n) :
    r.readMsg (n - got.length) = (r.input, { r with input := [] }) := by
  have unread : ((n : Int) - got.length).toNat = n - got.length := by omega
  have all : r.input.length ≤ n - got.length := by omega
  rw [readMsg, unread, List.take_of_length_le all, List.drop_of_length_le all]

/-- What the buffer lacks, if that is there. -/
theorem readMsg_full (input : r.input = more ++ rest) (size : (got ++ more).length = n) :
    r.readMsg (n - got.length) = (more, { r with input := rest }) := by
  have unread : ((n : Int) - got.length).toNat = more.length := by
    rw [List.length_append] at size
    omega
  rw [readMsg, unread, input, List.take_left, List.drop_left]

theorem length_ne_of_progress (size : (got ++ more).length = n) (progress : more ≠ []) :
    got.length ≠ n := by
  have pos := List.length_pos_of_ne_nil progress
  rw [List.length_append] at size
  omega

end Missing

/-! ## A turn inside a header -/

section Header

variable {n : Nat} {got more : List UInt8} (rest : List UInt8)

theorem recvMsg_inHead_short (pos : 0 < n) (short : got.length + input.length < n) :
    (inHead n got pb input).recvMsg codec = (true, inHead n (got ++ input) pb []) := by
  have missing : got.length ≠ n := by omega
  have still : got.length + input.length ≠ n := by omega
  have header : (inHead n got pb input).recvHead codec =
      (some true, inHead n (got ++ input) pb []) := by
    have read := readMsg_short (r := inHead n got pb input) short
    simp only [inHead] at read
    simp only [recvHead, headReceived, inHead, CMsg.filled_recved, CMsg.filled_size,
      CMsg.filled_recvSize, read, missing, decide_false, CMsg.filled_store, List.length_append, still, Bool.not_false]
    by_cases empty : input = []
    · simp [empty]
    · simp [empty]
  simp [recvMsg, recvSize_inHead _ _ _ pos, header]

/-- What was read of the header so far is kept. -/
theorem turn_inHead_wait (pos : 0 < n) (short : got.length + input.length < n) :
    Waits codec (inHead n got none input) (inHead n (got ++ input) none []) := by
  rw [Waits, turn, recvMsg_inHead_short codec none input pos short]
  rfl

/-- A header parsed earlier stands in for the one that is not there yet, and the empty `msg_`
counts as its body. -/
theorem turn_inHead_stale (p : CMsgHead) (pos : 0 < n)
    (short : got.length + input.length < n) :
    Dispatches codec (inHead n got (some p) input) (.filled n (got ++ input)) ⟨p, {}⟩
      (idle (some p) []) := by
  refine ⟨inHead n (got ++ input) (some p) [], turn_of_recv ?_ rfl rfl, rfl, rfl⟩
  exact recvMsg_inHead_short codec (some p) input pos short

/-- A header whose last bytes arrive is parsed at once. -/
theorem recvHead_inHead_full (size : (got ++ more).length = n) (progress : more ≠ []) :
    (inHead n got pb (more ++ rest)).recvHead codec =
      let (ok, p) := codec.parse (got ++ more)
      let r := inHead n (got ++ more) (some p) rest
      if !ok then (some false, r)
      else if p.msgSize = 0 then (some true, { r with msg := { type := p.msgType } })
      else
        let (ok, msg) := ({} : CMsg).alloc p.msgSize.toInt
        if !ok then (some false, r) else (none, { r with msg := { msg with type := p.msgType } }) := by
  have missing := length_ne_of_progress size progress
  have read := readMsg_full (r := inHead n got pb (more ++ rest)) rfl size
  simp only [inHead] at read
  simp only [recvHead, headReceived, inHead, CMsg.filled_recved, CMsg.filled_size,
    CMsg.filled_recvSize, read, missing, decide_false, CMsg.filled_store, size, progress,
    decide_true, Bool.not_true, Bool.false_eq_true, if_false, CMsg.filled_bytes size]

section Complete

variable (size : (got ++ more).length = n) (progress : more ≠ []) {p : CMsgHead}
include size progress

theorem pos_of_progress : 0 < n := by
  have pos := List.length_pos_of_ne_nil progress
  rw [← size, List.length_append]
  omega

theorem turn_inHead_unparsable (parse : codec.parse (got ++ more) = (false, p)) :
    Fails codec (inHead n got pb (more ++ rest)) (idle (some p) rest) := by
  have head := recvHead_inHead_full codec pb rest size progress
  simp only [parse, Bool.not_false, if_true] at head
  refine ⟨inHead n (got ++ more) (some p) rest, turn_of_fail ?_, rfl⟩
  rw [recvMsg, recvSize_inHead _ _ _ (pos_of_progress size progress)]
  simp only [head]

theorem turn_inHead_empty (parse : codec.parse (got ++ more) = (true, p)) (empty : p.msgSize = 0) :
    Dispatches codec (inHead n got pb (more ++ rest)) (.filled n (got ++ more))
      ⟨p, { type := p.msgType }⟩ (idle (some p) rest) := by
  have head := recvHead_inHead_full codec pb rest size progress
  simp only [parse, Bool.not_true, Bool.false_eq_true, if_false, empty, if_true] at head
  let r := { inHead n (got ++ more) (some p) rest with msg := { type := p.msgType } }
  refine ⟨r, turn_of_recv ?_ rfl rfl, rfl, rfl⟩
  rw [recvMsg, recvSize_inHead _ _ _ (pos_of_progress size progress)]
  simp only [head]
  rfl

theorem turn_inHead_refused (parse : codec.parse (got ++ more) = (true, p))
    (nonempty : p.msgSize ≠ 0) (refused : ¬Acceptable p.msgSize.toInt) :
    Fails codec (inHead n got pb (more ++ rest)) (idle (some p) rest) := by
  rw [acceptable_iff] at refused
  have head := recvHead_inHead_full codec pb rest size progress
  rw [parse] at head
  simp only [Bool.not_true, Bool.false_eq_true, if_false, nonempty,
    CMsg.alloc_refuse {} (s := p.msgSize.toInt) (by omega), Bool.not_false, if_true] at head
  refine ⟨inHead n (got ++ more) (some p) rest, turn_of_fail ?_, rfl⟩
  rw [recvMsg, recvSize_inHead _ _ _ (pos_of_progress size progress)]
  simp only [head]

theorem turn_inHead_accept (parse : codec.parse (got ++ more) = (true, p)) {m : Nat}
    (msgSize : p.msgSize.toInt = m) (pos : 0 < m) (bound : m ≤ 8192) :
    (inHead n got pb (more ++ rest)).turn codec =
      (inBody (got ++ more) p m [] rest).turn codec := by
  have head := recvHead_inHead_full codec pb rest size progress
  have nonempty : p.msgSize ≠ 0 := by
    rintro zero
    rw [zero] at msgSize
    have : (0 : Int) = m := msgSize
    omega
  rw [parse] at head
  simp only [Bool.not_true, Bool.false_eq_true, if_false, nonempty, msgSize,
    CMsg.alloc_accept {} pos bound] at head
  have first : (inHead n got pb (more ++ rest)).recvMsg codec =
      (true, (inBody (got ++ more) p m [] rest).recvBody) := by
    rw [recvMsg, recvSize_inHead _ _ _ (pos_of_progress size progress)]
    simp only [head]
    rw [inBody, size]
    rfl
  have headed : got ++ more ≠ [] := by simp [progress]
  rw [turn, turn, first, recvMsg_inBody codec headed]

end Complete

end Header

/-! ## A turn inside a body -/

section Body

variable {hdr : List UInt8} (headed : hdr ≠ []) (p : CMsgHead) {n : Nat} {got : List UInt8}
include headed

/-- What was read of the body so far is kept. -/
theorem turn_inBody_wait (short : got.length + input.length < n) :
    Waits codec (inBody hdr p n got input) (inBody hdr p n (got ++ input) []) := by
  have missing : got.length ≠ n := by omega
  have still : got.length + input.length ≠ n := by omega
  have body : (inBody hdr p n got input).recvBody = inBody hdr p n (got ++ input) [] := by
    have read := readMsg_short (r := inBody hdr p n got input) short
    simp only [inBody] at read
    simp only [recvBody, inBody, CMsg.filled_recved, CMsg.filled_size, CMsg.filled_recvSize, read,
      missing, decide_false, CMsg.filled_store]
    by_cases empty : input = []
    · simp [empty]
    · simp [empty]
  rw [Waits, turn, recvMsg_inBody codec headed, body]
  simp [getMsg, inBody, still]

theorem turn_inBody_dispatch {more : List UInt8} (rest : List UInt8) (size : (got ++ more).length = n)
    (progress : more ≠ []) :
    Dispatches codec (inBody hdr p n got (more ++ rest)) (.filled hdr.length hdr)
      ⟨p, .filled n (got ++ more) p.msgType⟩ (idle (some p) rest) := by
  have missing := length_ne_of_progress size progress
  have body : (inBody hdr p n got (more ++ rest)).recvBody = inBody hdr p n (got ++ more) rest := by
    have read := readMsg_full (r := inBody hdr p n got (more ++ rest)) rfl size
    simp only [inBody] at read
    simp only [recvBody, inBody, CMsg.filled_recved, CMsg.filled_size, CMsg.filled_recvSize, read,
      missing, decide_false, CMsg.filled_store, progress, Bool.false_eq_true, if_false]
  refine ⟨inBody hdr p n (got ++ more) rest, ?_, rfl, rfl⟩
  refine turn_of_recv ?_ rfl (by simpa [getMsg, inBody] using size)
  rw [recvMsg_inBody codec headed, body]

end Body

end MicroserviceFramework.Platform.Receiver
