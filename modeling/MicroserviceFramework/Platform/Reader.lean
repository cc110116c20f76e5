import MicroserviceFramework.Platform.BufferBounds
import MicroserviceFramework.Platform.Segmentation

/-!
# Reading what another end writes

One end of a connection writes frames while the other reads what has been written so far, some bytes
at a time. Whatever the two do in between, the handlers have been called with the first of the
frames, in their order (`Reads.dispatched_first`), as long as the reads end where a stream may be
cut. That is a matter of the bytes: all ways to take a stream apart into frames agree on it.
-/

namespace MicroserviceFramework.Platform

open Library Receiver

variable {codec : HeadCodec} {frames : List (Frame codec)}

/-! ## Where a stream may be cut -/

/-- After `p` bytes what has been written may be cut. -/
def MayCut (codec : HeadCodec) (first : Bool) (written : List UInt8) (p : Nat) : Prop :=
  ∃ frames : List (Frame codec), stream frames = written ∧ CutAllowed first frames p

/-- The frames of a stream have the contents that it dispatches. -/
theorem content_of_stream {others : List (Frame codec)} (same : stream frames = stream others) :
    frames.map (·.content) = others.map (·.content) := by
  have dispatched : frames.map (·.dispatch) = others.map (·.dispatch) := by
    rw [← readCb_stream frames none, ← readCb_stream others none, same]
  have contents := congrArg (List.map Dispatch.content) dispatched
  simpa only [List.map_map, Function.comp_def, OutFrame.dispatch_content] using contents

/-- The bytes of a frame, by its content. -/
theorem bytes_eq_of_content {f g : OutFrame codec} (same : f.content = g.content) :
    f.headStr = g.headStr ∧ f.bytes = g.bytes := by
  obtain ⟨header, body⟩ := Prod.mk.inj same
  have headStr : f.headStr = g.headStr := congrArg codec.serialize header
  exact ⟨headStr, by rw [OutFrame.bytes, OutFrame.bytes, headStr, body]⟩

theorem cutAllowed_congr {others : List (Frame codec)} {first : Bool} {p : Nat}
    (same : frames.map (·.content) = others.map (·.content)) :
    CutAllowed first frames p ↔ CutAllowed first others p := by
  induction frames generalizing others first p with
  | nil =>
    obtain rfl := List.map_eq_nil_iff.mp same.symm
    exact Iff.rfl
  | cons f fs ih =>
    rcases others with _ | ⟨g, gs⟩
    · cases same
    · obtain ⟨content, rest⟩ := List.cons.inj same
      obtain ⟨headStr, bytes⟩ := bytes_eq_of_content content
      rw [CutAllowed, CutAllowed, headStr, bytes, ih rest]

theorem MayCut.cutAllowed {first : Bool} {p : Nat} (cut : MayCut codec first (stream frames) p) :
    CutAllowed first frames p := by
  obtain ⟨others, same, allowed⟩ := cut
  exact (cutAllowed_congr (content_of_stream same)).mp allowed

theorem cutAllowed_zero (first : Bool) (frames : List (Frame codec)) :
    CutAllowed first frames 0 := by
  rcases frames with _ | ⟨f, fs⟩
  · trivial
  · have pos : 0 < f.bytes.length := by
      rw [f.length_bytes]
      omega
    rw [CutAllowed, if_pos pos]
    exact .inl rfl

/-- More frames make no difference to a cut before them. -/
theorem cutAllowed_append {first : Bool} {p : Nat} (within : p ≤ (stream frames).length)
    (allowed : CutAllowed first frames p) (more : List (Frame codec)) :
    CutAllowed first (frames ++ more) p := by
  induction frames generalizing first p with
  | nil =>
    obtain rfl := Nat.le_zero.mp within
    exact cutAllowed_zero first more
  | cons f fs ih =>
    rw [stream, List.flatMap_cons, List.length_append] at within
    rw [List.cons_append, CutAllowed]
    rw [CutAllowed] at allowed
    split at allowed
    next inside =>
      rw [if_pos inside]
      exact allowed
    next beyond =>
      rw [if_neg beyond]
      exact ih (Nat.sub_le_iff_le_add'.mpr within) allowed

/-- A stream that comes in chunks dispatches its frames. -/
theorem transduce_stream {chunks : List (List UInt8)} (cut : chunks.flatten = stream frames)
    (allowed : CutsAllowed frames chunks) :
    (transduce (recv codec) {} chunks).1 = frames.map (·.dispatch) := by
  have atOnce := transduce_recv frames chunks [] (by simpa using cut)
    (by simpa [CutsAllowed] using allowed)
  rw [readCb_idle_nil, List.nil_append] at atOnce
  rw [← readCb_stream frames none, atOnce]
  rfl

/-! ## The end that reads -/

structure Reader where
  /-- The header that an earlier connection left in `pbHead_`. -/
  before : Option CMsgHead := none
  receiver : Receiver := idle before []
  /-- How much has been read. -/
  offset : Nat := 0
  /-- What the handlers were called with. -/
  dispatched : List Dispatch := []

namespace Reader

/-- The next `n` bytes of what has been written arrive, or all that there are. -/
def read (codec : HeadCodec) (written : List UInt8) (n : Nat) (r : Reader) :
    List Dispatch × Reader :=
  let chunk := (written.drop r.offset).take n
  let (dispatches, receiver) := recv codec r.receiver chunk
  (dispatches, { r with
    receiver := receiver
    offset := r.offset + chunk.length
    dispatched := r.dispatched ++ dispatches })

/-- The reader is where it would be if it had read all at once. -/
structure Reads (frames : List (Frame codec)) (r : Reader) : Prop where
  within : r.offset ≤ (stream frames).length
  cut : CutAllowed r.before.isNone frames r.offset
  state : readCb codec (idle r.before ((stream frames).take r.offset)) = (r.dispatched, r.receiver)

variable {r : Reader}

theorem Reads.start (frames : List (Frame codec)) (before : Option CMsgHead) :
    Reads frames { before := before } :=
  ⟨Nat.zero_le _, cutAllowed_zero _ frames, by rw [List.take_zero, readCb_idle_nil]⟩

/-- The other end writes more. -/
theorem Reads.append (reads : Reads frames r) (more : List (Frame codec)) :
    Reads (frames ++ more) r := by
  have whole : stream (frames ++ more) = stream frames ++ stream more := List.flatMap_append
  refine ⟨?_, cutAllowed_append reads.within reads.cut more, ?_⟩
  · rw [whole, List.length_append]
    exact Nat.le_add_right_of_le reads.within
  · rw [whole, List.take_append_of_le_length reads.within]
    exact reads.state

/-- It reads on. -/
theorem Reads.read {n : Nat} (reads : Reads frames r)
    (cut : CutAllowed r.before.isNone frames (r.read codec (stream frames) n).2.offset) :
    Reads frames (r.read codec (stream frames) n).2 := by
  have within := reads.within
  set chunk := ((stream frames).drop r.offset).take n with next
  have upTo : (stream frames).take r.offset ++ chunk =
      (stream frames).take (r.offset + chunk.length) := by
    have first : chunk <+: (stream frames).drop r.offset := List.take_prefix n _
    rw [List.take_add, ← List.prefix_iff_eq_take.mp first]
  have on := recv_of_cutAllowed frames r.before r.offset reads.cut chunk
  dsimp only at on
  rw [reads.state, upTo] at on
  refine ⟨?_, cut, on⟩
  have short : chunk.length ≤ (stream frames).length - r.offset := by
    rw [next, List.length_take, List.length_drop]
    exact Nat.min_le_right _ _
  exact Nat.add_le_of_le_sub' within short

theorem read_dispatched (codec : HeadCodec) (written : List UInt8) (n : Nat) (r : Reader) :
    (r.read codec written n).2.dispatched = r.dispatched ++ (r.read codec written n).1 := rfl

/-- The handlers have been called with the first of the frames. -/
theorem Reads.dispatched_first (reads : Reads frames r) :
    r.dispatched <+: frames.map (·.dispatch) := by
  have rest := recv_of_cutAllowed frames r.before r.offset reads.cut
    ((stream frames).drop r.offset)
  dsimp only at rest
  rw [List.take_append_drop, reads.state] at rest
  rw [← readCb_stream frames r.before, rest]
  exact List.prefix_append _ _

/-- Who has read everything has called them with all of the frames. -/
theorem Reads.dispatched_all (reads : Reads frames r) (all : r.offset = (stream frames).length) :
    r.dispatched = frames.map (·.dispatch) := by
  have state := reads.state
  rw [all, List.take_length] at state
  rw [← readCb_stream frames r.before, state]

end Reader

/-! ## What a task has written -/

namespace CComeTask

/-- Only a new bufferevent is empty, and it is made where there was none. -/
theorem connect_output (lib : Libevent) (t : CComeTask) : (t.connect lib).2.output = t.output := by
  cases bev : t.bev with
  | none =>
    cases allocated : lib.bufferevent_new <;> cases connected : lib.socket_connect <;>
      simp [connect, output, bev, allocated, connected]
  | some b =>
    cases connected : lib.socket_connect <;> simp [connect, output, bev, connected]

theorem autoConnectTimerCb_output (lib : Libevent) (t : CComeTask) :
    (t.autoConnectTimerCb lib).output = t.output := by
  unfold autoConnectTimerCb
  split
  · rfl
  split
  · exact t.connect_output lib
  · rfl

theorem setAutoConnectTimer_output (lib : Libevent) (t : CComeTask) :
    (t.setAutoConnectTimer lib).output = t.output := by
  unfold setAutoConnectTimer freeAutoConnectTimer
  grind [output]

theorem init_output (lib : Libevent) (t : CComeTask) : (t.init lib).2.output = [] := by
  have made : (t.initBev lib).2.output = [] := by
    rw [output, initBev_bev]
    split <;> rfl
  unfold init
  dsimp only
  split
  · exact made
  · rw [connect_output, setAutoConnectTimer_output, made]

/-- The end of a connection discards what was written on it. -/
theorem eventCb_output {what : What} {t t' : CComeTask} (event : t.eventCb what = some t') :
    t'.output = if what.ending then [] else t.output := by
  by_cases ends : what.ending
  · rw [if_pos ends]
    obtain ⟨deleted, kept⟩ := eventCb_ending ends t
    cases auto : t.autoDelete with
    | true =>
      rw [deleted auto] at event
      cases event
    | false =>
      obtain ⟨u, closed, down, -⟩ := kept auto
      obtain rfl := Option.some.inj (closed.symm.trans event)
      rw [output, down]
      rfl
  · rw [if_neg ends]
    obtain ⟨connected, error, timeout, eof⟩ := what
    simp only [What.ending, Bool.or_eq_true, not_or, Bool.not_eq_true] at ends
    obtain ⟨⟨rfl, rfl⟩, rfl⟩ := ends
    simp only [eventCb, Bool.false_eq_true, if_false, Option.bind_eq_bind, Option.bind_some,
      Option.some.injEq] at event
    subst event
    cases connected <;> cases bev : t.bev <;> simp [output, bev]

end CComeTask

/-! ## Sending on what was received -/

namespace CMsg.Within

variable {m : CMsg}

theorem length_bytes (within : m.Within) : (m.bytes.length : Int) = m.size := by
  have nonneg : 0 ≤ m.size := Int.le_trans within.nonneg within.received
  by_cases pos : 0 < m.size
  · obtain ⟨block, data, enough⟩ := within.allocated pos
    simp only [CMsg.bytes, data, Option.getD_some, List.length_take]
    omega
  · have zero : m.size = 0 := by omega
    simp [CMsg.bytes, zero]

/-- `writeMsg` takes the bytes of the message. -/
theorem writeMsg (within : m.Within) (t : CComeTask) (written : Bool) :
    t.writeMsg m.data m.size written = t.writeMsg (some m.bytes) m.bytes.length written := by
  rw [within.length_bytes]
  by_cases pos : 0 < m.size
  · obtain ⟨block, data, -⟩ := within.allocated pos
    have again : (block.take m.size.toNat).take m.size.toNat = block.take m.size.toNat := by
      rw [List.take_take, Nat.min_self]
    cases bev : t.bev <;> simp [CComeTask.writeMsg, bev, data, CMsg.bytes, again]
  · have none_left : m.size ≤ 0 := Int.not_lt.mp pos
    cases bev : t.bev <;> cases m.data <;> simp [CComeTask.writeMsg, bev, none_left]

theorem sendMsg (within : m.Within) (codec : HeadCodec) (head : CMsgHead) (written : List Bool)
    (t : CComeTask) : t.sendMsg codec (some head) (some m) written =
      t.sendMsg codec (some head) (some (.ofBytes m.bytes)) written := by
  simp only [CComeTask.sendMsg, CComeTask.parts, CComeTask.writeAll, CMsg.ofBytes,
    within.length_bytes, within.writeMsg]

end CMsg.Within

namespace Receiver

theorem Bounded.turn_dispatch {r r' : Receiver} {d : Dispatch} (bounded : Bounded r)
    (turn : r.turn codec = .dispatch r' d) : d.msg.Within := by
  unfold Receiver.turn at turn
  rcases received : r.recvMsg codec with ⟨ok, r₁⟩
  rw [received] at turn
  cases ok with
  | false => cases turn
  | true =>
    dsimp only at turn
    split at turn
    next head msg _ complete =>
      obtain ⟨rfl, rfl⟩ := Turn.dispatch.inj turn
      unfold getMsg at complete
      split at complete
      · obtain rfl := Option.some.inj complete
        exact (bounded.recvMsg received).msg
      · cases complete
    · cases turn

theorem readLoop_within (n : Nat) {r : Receiver} (bounded : Bounded r) :
    (∀ d ∈ (readLoop codec n r).1, d.msg.Within) ∧ Bounded (readLoop codec n r).2 := by
  induction n generalizing r with
  | zero => exact ⟨by simp [readLoop], bounded⟩
  | succ n ih =>
    rw [readLoop]
    cases turn : r.turn codec with
    | fail r' => exact ⟨by simp, .clear r'⟩
    | wait r' => exact ⟨by simp, bounded.turn_wait turn⟩
    | dispatch r' d =>
      obtain ⟨later, final⟩ := ih (.clear r')
      exact ⟨List.forall_mem_cons.mpr ⟨bounded.turn_dispatch turn, later⟩, final⟩

/-- Whatever arrives, the messages that the handlers get are within their bounds. -/
theorem recv_within (codec : HeadCodec) {r : Receiver} (bounded : Bounded r)
    (chunk : List UInt8) :
    (∀ d ∈ (recv codec r chunk).1, d.msg.Within) ∧ Bounded (recv codec r chunk).2 :=
  readLoop_within _ (bounded.input _)

end Receiver

/-- A receiver takes this header, with the size of the message in it. -/
def HeadFits (codec : HeadCodec) (head : CMsgHead) (msg : CMsg) : Prop :=
  codec.serialize (head.sized msg.size) ≠ [] ∧
    (codec.serialize (head.sized msg.size)).length ≤ 8192

instance (codec : HeadCodec) (head : CMsgHead) (msg : CMsg) : Decidable (HeadFits codec head msg) :=
  inferInstanceAs (Decidable (_ ∧ _))

/-- What was received can be sent on, if its new header fits. -/
theorem exists_frame {head : CMsgHead} {msg : CMsg} (within : msg.Within)
    (fits : HeadFits codec head msg) : ∃ f : Frame codec, f.head = head ∧ f.body = msg.bytes := by
  have size := within.length_bytes
  have limit : msg.size ≤ 8192 := within.limit
  have small : msg.bytes.length ≤ 8192 := by omega
  rw [HeadFits, ← size] at fits
  exact ⟨{
    head := head
    body := msg.bytes
    body_fits := Nat.lt_of_le_of_lt small (by decide)
    head_fits := Nat.lt_of_le_of_lt fits.2 (by decide)
    accepted := ⟨fits.1, fits.2, small⟩ }, rfl, rfl⟩

end MicroserviceFramework.Platform
