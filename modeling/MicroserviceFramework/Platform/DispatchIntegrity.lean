import MicroserviceFramework.Platform.Framing

/-!
# What a dispatch is made of

A traced receiver remembers the bytes it has read since the last dispatch or `clear()`. On any
input, a handler is called with the header and the body that these bytes are made of, except by a
turn that starts with a header from an earlier frame and ends inside the header of the next.
-/

namespace MicroserviceFramework.Platform

open Library Receiver

structure Traced where
  rx : Receiver := {}
  /-- What has been read since the last dispatch or `clear()`. -/
  since : List UInt8 := []

/-- One turn of the loop in `readCb()`. -/
structure Record where
  before : Receiver
  /-- What has been read since the last dispatch or `clear()` when the turn ends. -/
  since : List UInt8
  result : Turn
  deriving DecidableEq, Repr

/-- The state that `recvMsg` left. -/
def Receiver.Turn.state : Turn → Receiver
  | .fail r | .wait r | .dispatch r _ => r

/-- What has been read when `all` was there to read and `left` is still there. -/
def used (all left : List UInt8) : List UInt8 := all.take (all.length - left.length)

@[simp] theorem used_append (xs left : List UInt8) : used (xs ++ left) left = xs := by
  simp [used]

@[simp] theorem used_nil (xs : List UInt8) : used xs [] = xs := by simp [used]

namespace Traced

variable (codec : HeadCodec)

def record (t : Traced) : Record where
  before := t.rx
  since := used (t.since ++ t.rx.input) (t.rx.turn codec).state.input
  result := t.rx.turn codec

/-- `readLoop`, recording its turns. -/
def readLoop : Nat → Traced → List Record × Traced
  | 0, t => ([], t)
  | n + 1, t =>
    match t.rx.turn codec with
    | .fail r => ([t.record codec], ⟨r.clear, []⟩)
    | .wait r => ([t.record codec], ⟨r, (t.record codec).since⟩)
    | .dispatch r _ =>
      (t.record codec :: (readLoop n ⟨r.clear, []⟩).1, (readLoop n ⟨r.clear, []⟩).2)

/-- What can happen to a receiver: bytes arrive and the read callback runs, or it is cleared. -/
inductive Event where
  | recv (chunk : List UInt8)
  | clear

def handle (t : Traced) : Event → List Record × Traced
  | .recv chunk =>
    let t := { t with rx := { t.rx with input := t.rx.input ++ chunk } }
    t.readLoop codec (t.rx.input.length + 2)
  | .clear => ([], ⟨t.rx.clear, []⟩)

/-- All turns of a fresh receiver. -/
def history (events : List Event) : List Record := (transduce (handle codec) {} events).1

end Traced

/-- What a turn hands to the handler. -/
def Record.dispatch? (record : Record) : Option Dispatch :=
  match record.result with
  | .dispatch _ d => some d
  | _ => none

/-- Recording changes nothing: the turns dispatch what `readCb()` does. -/
theorem Traced.readLoop_erase (codec : HeadCodec) (n : Nat) (t : Traced) :
    Receiver.readLoop codec n t.rx =
      ((t.readLoop codec n).1.filterMap Record.dispatch?, (t.readLoop codec n).2.rx) := by
  induction n generalizing t with
  | zero => rfl
  | succ n ih =>
    rw [Receiver.readLoop, Traced.readLoop]
    split
    next r fail => simp [Record.dispatch?, Traced.record, fail]
    next r wait => simp [Record.dispatch?, Traced.record, wait]
    next r d step =>
      have later := ih ⟨r.clear, []⟩
      simp only at later
      simp [Record.dispatch?, Traced.record, step, later]

/-! ## Genuine dispatches -/

/-- The handler gets the header parsed from a complete header, and the body that followed it. -/
structure Genuine (codec : HeadCodec) (since : List UInt8) (r : Receiver) (d : Dispatch) : Prop where
  complete : r.head.recved
  header : (r.head.bytes.length : Int) = r.head.size
  parsed : codec.parse r.head.bytes = (true, d.head)
  size : d.msg.size = d.head.msgSize.toInt
  body : (d.msg.bytes.length : Int) = d.msg.size
  read : ∃ length, leInt length = r.head.size ∧ since = length ++ r.head.bytes ++ d.msg.bytes

/-- If the turn called a handler, then with a genuine message. -/
def Record.Genuine (codec : HeadCodec) (record : Record) : Prop :=
  ∀ r d, record.result = .dispatch r d → Platform.Genuine codec record.since r d

namespace Receiver

/-- The bytes that are there end inside a header. -/
def HeaderCut (r : Receiver) : Prop :=
  if r.head.size = 0 then
    Acceptable (leInt (r.input.take 4)) ∧ ((r.input.drop 4).length : Int) < leInt (r.input.take 4)
  else r.head.recvSize + r.input.length < r.head.size

/-- A header from an earlier frame is still there, and the next one is not. -/
def Stale (r : Receiver) : Prop := r.pbHead.isSome ∧ r.HeaderCut

end Receiver

/-- The states a traced receiver reaches: what it has read since the last dispatch is the part of
a frame that its buffers hold. -/
inductive Coherent (codec : HeadCodec) : Traced → Prop
  | idle (pb : Option CMsgHead) (input : List UInt8) : Coherent codec ⟨idle pb input, []⟩
  | inHead {n : Nat} {length got input : List UInt8} {pb : Option CMsgHead} (bound : n ≤ 8192)
      (size : leInt length = n) (short : got.length < n) :
      Coherent codec ⟨inHead n got pb input, length ++ got⟩
  | inBody {n : Nat} {length hdr got input : List UInt8} {p : CMsgHead} (headed : hdr ≠ [])
      (size : leInt length = hdr.length) (parsed : codec.parse hdr = (true, p))
      (msgSize : p.msgSize.toInt = n) (short : got.length < n) :
      Coherent codec ⟨inBody hdr p n got input, length ++ hdr ++ got⟩

/-- What a turn may come to, when `all` is what has been read or is there to read since the last
dispatch. -/
def TurnOk (codec : HeadCodec) (all : List UInt8) (stale : Prop) : Turn → Prop
  | .fail r => ¬stale ∧ Coherent codec ⟨r.clear, []⟩
  | .wait r => ¬stale ∧ Coherent codec ⟨r, used all r.input⟩
  | .dispatch r d =>
    (Genuine codec (used all r.input) r d ↔ ¬stale) ∧ Coherent codec ⟨r.clear, []⟩

variable {codec : HeadCodec} {all : List UInt8} {stale : Prop} {r s : Receiver}

theorem TurnOk.of_fails (fails : Fails codec r (idle pb rest)) (fresh : ¬stale) :
    TurnOk codec all stale (r.turn codec) := by
  obtain ⟨r', step, clear⟩ := fails
  rw [step]
  exact ⟨fresh, clear ▸ .idle pb rest⟩

/-- The header and body of a dispatch, read one after the other. -/
theorem TurnOk.of_dispatches {hdr rest length : List UInt8} {d : Dispatch} {pb : Option CMsgHead}
    (dispatches : Dispatches codec r (.filled hdr.length hdr) d (idle pb rest)) (fresh : ¬stale)
    (size : leInt length = hdr.length) (parsed : codec.parse hdr = (true, d.head))
    (msgSize : d.msg.size = d.head.msgSize.toInt) (body : (d.msg.bytes.length : Int) = d.msg.size)
    (read : all = length ++ hdr ++ d.msg.bytes ++ rest) :
    TurnOk codec all stale (r.turn codec) := by
  obtain ⟨r', step, head, clear⟩ := dispatches
  have left : r'.input = rest := congrArg Receiver.input clear
  have bytes : r'.head.bytes = hdr := by rw [head, CMsg.filled_bytes rfl]
  rw [step]
  refine ⟨iff_of_true ?_ fresh, clear ▸ .idle pb rest⟩
  exact {
    complete := by simp [head]
    header := by rw [bytes, head, CMsg.filled_size]
    parsed := by rw [bytes, parsed]
    size := msgSize
    body := body
    read := ⟨length, by simp [head, size], by rw [read, left, used_append, bytes]⟩ }

variable {n : Nat} {length hdr got input : List UInt8} {p : CMsgHead}

theorem turn_inBody_ok (got input : List UInt8) (headed : hdr ≠ []) (size : leInt length = hdr.length)
    (parsed : codec.parse hdr = (true, p)) (msgSize : p.msgSize.toInt = n)
    (short : got.length < n) (fresh : ¬stale) :
    TurnOk codec (length ++ hdr ++ got ++ input) stale ((inBody hdr p n got input).turn codec) := by
  by_cases still : got.length + input.length < n
  · rw [turn_inBody_wait codec input headed p still]
    refine ⟨fresh, ?_⟩
    rw [inBody_input, used_nil, List.append_assoc]
    exact .inBody headed size parsed msgSize (by simpa using still)
  · obtain ⟨more, rest, rfl, enough, progress⟩ :=
      exists_split (n - got.length) input (by omega) (by omega)
    have whole : (got ++ more).length = n := by simp; omega
    have bytes : (CMsg.filled n (got ++ more) p.msgType).bytes = got ++ more :=
      CMsg.filled_bytes whole
    refine .of_dispatches (turn_inBody_dispatch codec headed p rest whole progress) fresh size parsed
      (by simp [msgSize]) ?_ ?_
    · simp only [bytes, whole, CMsg.filled_size]
    · simp only [bytes, List.append_assoc]

theorem turn_inHead_ok (got input : List UInt8) (pb : Option CMsgHead) (bound : n ≤ 8192) (size : leInt length = n)
    (short : got.length < n) (place : stale ↔ pb.isSome ∧ got.length + input.length < n) :
    TurnOk codec (length ++ got ++ input) stale ((inHead n got pb input).turn codec) := by
  have pos : 0 < n := by omega
  by_cases still : got.length + input.length < n
  · cases pb with
    | none =>
      rw [turn_inHead_wait codec input pos still]
      refine ⟨by simp [place], ?_⟩
      rw [inHead_input, used_nil, List.append_assoc]
      exact .inHead bound size (by simpa using still)
    | some p =>
      obtain ⟨r, step, head, clear⟩ := turn_inHead_stale codec input p pos still
      rw [step]
      refine ⟨iff_of_false (fun genuine => ?_) (by simp [place, still]), clear ▸ .idle _ _⟩
      have complete := genuine.complete
      simp [head] at complete
      omega
  · have fresh : ¬stale := by rw [place]; exact fun both => still both.2
    obtain ⟨more, rest, rfl, enough, progress⟩ :=
      exists_split (n - got.length) input (by omega) (by omega)
    obtain rfl : n = (got ++ more).length := by simp; omega
    rcases parsed : codec.parse (got ++ more) with ⟨ok, p⟩
    cases ok with
    | false => exact .of_fails (turn_inHead_unparsable codec pb rest rfl progress parsed) fresh
    | true =>
      by_cases empty : p.msgSize = 0
      · refine .of_dispatches (turn_inHead_empty codec pb rest rfl progress parsed empty) fresh size
          parsed (by simp [empty]) ?_ ?_
        · simp [CMsg.bytes]
        · simp [CMsg.bytes]
      · by_cases acceptable : Acceptable p.msgSize.toInt
        · rw [acceptable_iff] at acceptable
          obtain ⟨m, msgSize⟩ : ∃ m : Nat, p.msgSize.toInt = m := ⟨p.msgSize.toInt.toNat, by omega⟩
          rw [turn_inHead_accept codec pb rest rfl progress parsed msgSize (by omega) (by omega)]
          have body := turn_inBody_ok [] rest (by simp [progress]) size parsed
            msgSize (by simp; omega) fresh
          simpa using body
        · exact .of_fails (turn_inHead_refused codec pb rest rfl progress parsed empty acceptable) fresh

theorem stale_inHead (pos : 0 < n) (pb : Option CMsgHead) :
    (inHead n got pb input).Stale ↔ pb.isSome ∧ got.length + input.length < n := by
  have nonzero : (n : Int) ≠ 0 := by omega
  simp only [Stale, HeaderCut, inHead, CMsg.filled_size, nonzero, if_false, CMsg.filled_recvSize]
  exact and_congr_right fun _ => by omega

theorem not_stale_inBody (headed : hdr ≠ []) : ¬(inBody hdr p n got input).Stale := by
  have nonzero : (hdr.length : Int) ≠ 0 := by simpa using headed
  rintro ⟨-, cut⟩
  simp only [HeaderCut, inBody, CMsg.filled_size, nonzero, if_false, CMsg.filled_recvSize] at cut
  omega

/-- A turn calls a handler with a genuine message, or with none, unless it is stale; and then it
does call one. -/
theorem turn_ok {t : Traced} (coherent : Coherent codec t) :
    TurnOk codec (t.since ++ t.rx.input) t.rx.Stale (t.rx.turn codec) := by
  cases coherent with
  | idle pb input =>
    have cut : (idle pb input).HeaderCut ↔ Acceptable (leInt (input.take 4)) ∧
        ((input.drop 4).length : Int) < leInt (input.take 4) := by simp [HeaderCut, idle]
    by_cases acceptable : Acceptable (leInt (input.take 4))
    · rw [acceptable_iff] at acceptable
      obtain ⟨n, size⟩ : ∃ n : Nat, leInt (input.take 4) = n :=
        ⟨(leInt (input.take 4)).toNat, by omega⟩
      rw [turn_idle_accept codec pb input size (by omega) (by omega)]
      have place : (idle pb input).Stale ↔
          pb.isSome ∧ ([] : List UInt8).length + (input.drop 4).length < n := by
        rw [Stale, cut, acceptable_iff, size]
        simp [idle]
        omega
      simpa using turn_inHead_ok [] (input.drop 4) pb (by omega) size
        (by simp; omega) place
    · exact .of_fails (turn_idle_reject codec pb input acceptable) fun stale =>
        acceptable (cut.mp stale.2).1
  | inHead bound size short =>
    exact turn_inHead_ok _ _ _ bound size short (stale_inHead (by omega) _)
  | inBody headed size parsed msgSize short =>
    exact turn_inBody_ok _ _ headed size parsed msgSize short (not_stale_inBody headed)

/-! ## Every turn of every history -/

theorem record_genuine_iff {t : Traced} (coherent : Coherent codec t) :
    (t.record codec).Genuine codec ↔ ¬(t.record codec).before.Stale := by
  have ok := turn_ok coherent
  simp only [Record.Genuine, Traced.record]
  cases step : t.rx.turn codec with
  | fail r => rw [step] at ok; simpa using ok.1
  | wait r => rw [step] at ok; simpa using ok.1
  | dispatch r d =>
    rw [step] at ok
    simpa [Turn.state] using ok.1

theorem coherent_input {t : Traced} (coherent : Coherent codec t) (chunk : List UInt8) :
    Coherent codec { t with rx := { t.rx with input := t.rx.input ++ chunk } } := by
  cases coherent with
  | idle pb input => exact .idle pb (input ++ chunk)
  | inHead bound size short => exact .inHead bound size short
  | inBody headed size parsed msgSize short => exact .inBody headed size parsed msgSize short

theorem coherent_clear {t : Traced} (coherent : Coherent codec t) :
    Coherent codec ⟨t.rx.clear, []⟩ := by
  cases coherent with
  | idle pb input => exact .idle pb input
  | inHead => exact .idle _ _
  | inBody => exact .idle _ _

theorem readLoop_ok (k : Nat) {t : Traced} (coherent : Coherent codec t) :
    (∀ record ∈ (t.readLoop codec k).1, record.Genuine codec ↔ ¬record.before.Stale) ∧
      Coherent codec (t.readLoop codec k).2 := by
  induction k generalizing t with
  | zero => simpa [Traced.readLoop] using coherent
  | succ k ih =>
    have ok := turn_ok coherent
    have here := record_genuine_iff coherent
    rw [Traced.readLoop]
    split
    next r step =>
      rw [step] at ok
      exact ⟨by simpa using here, ok.2⟩
    next r step =>
      rw [step] at ok
      refine ⟨by simpa using here, ?_⟩
      simpa [Traced.record, step, Turn.state] using ok.2
    next r d step =>
      rw [step] at ok
      obtain ⟨later, final⟩ := ih ok.2
      exact ⟨by simpa [here] using later, final⟩

/-- Whatever arrives, cut in whatever way: all dispatches are genuine exactly when no turn starts
with the header of an earlier frame and ends inside the next. -/
theorem genuine_iff (codec : HeadCodec) (events : List Traced.Event) :
    (∀ record ∈ Traced.history codec events, record.Genuine codec) ↔
      ∀ record ∈ Traced.history codec events, ¬record.before.Stale := by
  have step : ∀ t event, Coherent codec t →
      (∀ record ∈ (Traced.handle codec t event).1,
        record.Genuine codec ↔ ¬record.before.Stale) ∧
      Coherent codec (Traced.handle codec t event).2 := by
    intro t event coherent
    cases event with
    | recv chunk => exact readLoop_ok _ (coherent_input coherent chunk)
    | clear => exact ⟨by simp [Traced.handle], coherent_clear coherent⟩
  have each := (transduce_outputs step (.idle none []) events).1
  exact forall₂_congr each

open Library.Wire.Reader

/-- A request without a body is followed by a length. The request is handled again. -/
theorem dispatch_not_genuine :
    ¬∀ record ∈ Traced.history CMsgHead.codec [.recv [2, 0, 0, 0, 16, 7], .recv [4, 0, 0, 0]],
      record.Genuine CMsgHead.codec := by
  intro genuine
  let request : CMsgHead := { msgType := CMsgType.MSG_GET_SERVICE_REQ }
  let cut := inHead 4 [] (some request) []
  have again := genuine ⟨idle (some request) [4, 0, 0, 0], [4, 0, 0, 0], .dispatch cut ⟨request, {}⟩⟩
    (by decide) cut ⟨request, {}⟩ rfl
  exact absurd again.complete (by decide)

end MicroserviceFramework.Platform
