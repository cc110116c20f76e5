import MicroserviceFramework.Platform.Framing

/-!
# Streams cut into chunks

A stream of frames arrives in chunks, and `readCb()` runs after each. It may be cut anywhere
except inside the four bytes of a length and, once a header has been parsed, between a length
and the end of its header: there the length is read short, or the old header is dispatched again
with an empty body. Between the cuts that remain, feeding a stream in chunks is feeding it at
once (`transduce_recv`), which dispatches its frames (`readCb_stream`).
-/

namespace MicroserviceFramework.Platform

open Library Receiver

/-- A message that the receiver takes. -/
structure Frame (codec : HeadCodec) extends OutFrame codec where
  accepted : toOutFrame.Accepted

variable {codec : HeadCodec}

def stream (frames : List (Frame codec)) : List UInt8 := frames.flatMap (·.bytes)

/-- Whether a stream of frames may be cut after `p` bytes: at the end of a frame, in a body, and
in the header of the first frame that is received. -/
def CutAllowed (first : Bool) : List (Frame codec) → Nat → Prop
  | [], _ => True
  | f :: fs, p =>
    if p < f.bytes.length then p = 0 ∨ 4 ≤ p ∧ (first ∨ 4 + f.headStr.length ≤ p)
    else CutAllowed false fs (p - f.bytes.length)

instance CutAllowed.decidable :
    ∀ (first : Bool) (frames : List (Frame codec)) (p : Nat), Decidable (CutAllowed first frames p)
  | _, [], _ => .isTrue trivial
  | _, f :: fs, p =>
    have := CutAllowed.decidable false fs (p - f.bytes.length)
    inferInstanceAs (Decidable (if p < f.bytes.length then _ else _))

/-- Every boundary between two chunks is allowed. -/
def CutsAllowed (frames : List (Frame codec)) (chunks : List (List UInt8)) : Prop :=
  ∀ i ≤ chunks.length, CutAllowed true frames (chunks.take i).flatten.length

instance (frames : List (Frame codec)) (chunks : List (List UInt8)) :
    Decidable (CutsAllowed frames chunks) := inferInstanceAs (Decidable (∀ i ≤ _, _))

theorem readCb_idle_nil (pb : Option CMsgHead) : readCb codec (idle pb []) = ([], idle pb []) :=
  readCb_of_fails (turn_idle_reject codec pb [] (by decide))

theorem recv_idle (pb : Option CMsgHead) (chunk : List UInt8) :
    recv codec (idle pb []) chunk = readCb codec (idle pb chunk) := rfl

/-! ## Cutting a stream -/

/-- After `read` the receiver waits in `s`, where more input is as good as more input then. -/
def Suspends (codec : HeadCodec) (pb : Option CMsgHead) (read : List UInt8) (s : Receiver) : Prop :=
  Waits codec s s ∧ s.input = [] ∧
    ∀ input, readCb codec (idle pb (read ++ input)) = readCb codec { s with input := input }

theorem recv_of_suspends {pb : Option CMsgHead} {read : List UInt8} {s : Receiver}
    (suspends : Suspends codec pb read s) (chunk : List UInt8) :
    readCb codec (idle pb (read ++ chunk)) =
      ((readCb codec (idle pb read)).1 ++ (recv codec (readCb codec (idle pb read)).2 chunk).1,
        (recv codec (readCb codec (idle pb read)).2 chunk).2) := by
  obtain ⟨waits, unread, same⟩ := suspends
  have before : readCb codec (idle pb read) = ([], s) := by
    have at_once := same []
    rw [List.append_nil, ← unread] at at_once
    exact at_once.trans (readCb_of_waits waits)
  rw [before, same chunk]
  simp [recv, unread]

/-- Inside a header, when no header has been parsed before. -/
theorem suspends_inHead {f : OutFrame codec} (accepted : f.Accepted) {got : List UInt8}
    (inside : got.length < f.headStr.length) :
    Suspends codec none (le32 f.headStr.length ++ got) (inHead f.headStr.length got none []) := by
  have pos := List.length_pos_of_ne_nil accepted.headed
  refine ⟨?_, rfl, fun input => ?_⟩
  · have turn := turn_inHead_wait codec [] pos (show got.length + [].length < _ from inside)
    rwa [List.append_nil] at turn
  · rw [List.append_assoc, OutFrame.readCb_length none _ accepted]
    exact readCb_inHead_shift [] got none inside input

/-- Inside a body. -/
theorem suspends_inBody {f : OutFrame codec} (accepted : f.Accepted) (pb : Option CMsgHead)
    {got : List UInt8} (inside : got.length < f.body.length) :
    Suspends codec pb (le32 f.headStr.length ++ f.headStr ++ got)
      (inBody f.headStr f.header f.body.length got []) := by
  have nonempty : f.body ≠ [] := by rintro empty; simp [empty] at inside
  refine ⟨?_, rfl, fun input => ?_⟩
  · have turn := turn_inBody_wait codec [] accepted.headed f.header
      (show got.length + [].length < _ from inside)
    rwa [List.append_nil] at turn
  · rw [List.append_assoc, List.append_assoc, OutFrame.readCb_length pb _ accepted,
      OutFrame.readCb_header pb _ (List.nil_append _) accepted.headed nonempty accepted.body_small]
    exact readCb_inBody_shift [] got accepted.headed f.header inside input

/-- Cut off inside a frame, where that is allowed. -/
theorem exists_suspends {f : OutFrame codec} (accepted : f.Accepted) {pb : Option CMsgHead} {p : Nat}
    (inside : p < f.bytes.length) (sized : 4 ≤ p)
    (allowed : pb.isNone ∨ 4 + f.headStr.length ≤ p) :
    ∃ s, Suspends codec pb (f.bytes.take p) s := by
  rw [f.length_bytes] at inside
  by_cases header : p < 4 + f.headStr.length
  · obtain rfl : pb = none := by
      rcases allowed with first | beyond
      · exact Option.isNone_iff_eq_none.mp first
      · omega
    have read : f.bytes.take p = le32 f.headStr.length ++ f.headStr.take (p - 4) := by
      have whole : (le32 f.headStr.length).take p = le32 f.headStr.length :=
        List.take_of_length_le (by simpa using sized)
      have none_left : p - 4 - f.headStr.length = 0 := by omega
      simp [OutFrame.bytes, List.take_append, whole, none_left]
    rw [read]
    exact ⟨_, suspends_inHead accepted (by simp; omega)⟩
  · have read : f.bytes.take p =
        le32 f.headStr.length ++ f.headStr ++ f.body.take (p - 4 - f.headStr.length) := by
      have whole : (le32 f.headStr.length ++ f.headStr).take p = le32 f.headStr.length ++ f.headStr :=
        List.take_of_length_le (by simp; omega)
      rw [OutFrame.bytes, List.take_append, whole]
      simp [Nat.sub_sub]
    rw [read]
    exact ⟨_, suspends_inBody accepted pb (by simp; omega)⟩

/-- A receiver that was cut off where it is allowed goes on as if it had not been. -/
theorem recv_of_cutAllowed (frames : List (Frame codec)) (pb : Option CMsgHead) (p : Nat)
    (allowed : CutAllowed pb.isNone frames p) (chunk : List UInt8) :
    let read := (stream frames).take p
    readCb codec (idle pb (read ++ chunk)) =
      ((readCb codec (idle pb read)).1 ++ (recv codec (readCb codec (idle pb read)).2 chunk).1,
        (recv codec (readCb codec (idle pb read)).2 chunk).2) := by
  intro read
  induction frames generalizing pb p with
  | nil =>
    simp only [read, stream, List.flatMap_nil, List.take_nil, List.nil_append, readCb_idle_nil]
    rfl
  | cons f fs ih =>
    simp only [read, stream, List.flatMap_cons, List.take_append]
    rw [CutAllowed] at allowed
    split at allowed
    next inside =>
      rw [Nat.sub_eq_zero_of_le (Nat.le_of_lt inside), List.take_zero, List.append_nil]
      rcases allowed with rfl | ⟨sized, place⟩
      · simp only [List.take_zero, List.nil_append, readCb_idle_nil]
        rfl
      · obtain ⟨s, suspends⟩ := exists_suspends f.accepted inside sized place
        exact recv_of_suspends suspends chunk
    next beyond =>
      rw [List.take_of_length_le (by omega), List.append_assoc,
        OutFrame.readCb_bytes pb _ f.accepted, OutFrame.readCb_bytes pb _ f.accepted]
      have rest := ih (some f.header) (p - f.bytes.length) allowed
      simp only [stream] at rest
      simp only [rest, List.cons_append]

/-! ## A stream at once and in chunks -/

theorem readCb_stream (frames : List (Frame codec)) (pb : Option CMsgHead) :
    (readCb codec (idle pb (stream frames))).1 = frames.map (·.dispatch) := by
  induction frames generalizing pb with
  | nil => simp [stream, readCb_idle_nil]
  | cons f fs ih =>
    rw [stream, List.flatMap_cons, OutFrame.readCb_bytes pb _ f.accepted]
    simpa [stream] using ih (some f.header)

/-- The chunks still to come add what the whole stream dispatches beyond what has been read. -/
theorem transduce_recv (frames : List (Frame codec)) (chunks : List (List UInt8))
    (done : List UInt8) (cut : done ++ chunks.flatten = stream frames)
    (allowed : ∀ i ≤ chunks.length,
      CutAllowed true frames (done ++ (chunks.take i).flatten).length) :
    readCb codec (idle none (stream frames)) =
      ((readCb codec (idle none done)).1 ++
          (transduce (recv codec) (readCb codec (idle none done)).2 chunks).1,
        (transduce (recv codec) (readCb codec (idle none done)).2 chunks).2) := by
  induction chunks generalizing done with
  | nil =>
    rw [List.flatten_nil, List.append_nil] at cut
    simp [cut, transduce]
  | cons chunk chunks ih =>
    have here : CutAllowed true frames done.length := by simpa using allowed 0 (Nat.zero_le _)
    have start : done = (stream frames).take done.length := by simp [← cut]
    have step := recv_of_cutAllowed frames none done.length here chunk
    rw [← start] at step
    have rest := ih (done ++ chunk) (by simpa using cut) fun i bound => by
      simpa [List.append_assoc] using allowed (i + 1) (by simpa using bound)
    rw [rest, step]
    simp [transduce, List.append_assoc]

/-- Cut only where it is allowed, a stream of frames dispatches exactly its frames. -/
theorem segmentation (frames : List (Frame codec)) (chunks : List (List UInt8))
    (cut : chunks.flatten = stream frames) (allowed : CutsAllowed frames chunks) :
    (transduce (recv codec) {} chunks).1.map Dispatch.content = frames.map (·.content) := by
  have atOnce := transduce_recv frames chunks [] (by simpa using cut)
    (by simpa [CutsAllowed] using allowed)
  rw [readCb_idle_nil, List.nil_append] at atOnce
  have dispatched := congrArg Prod.fst atOnce
  rw [readCb_stream] at dispatched
  rw [show ({} : Receiver) = idle none [] from rfl, ← dispatched]
  simp

/-! ## Two requests without a body -/

section Requests

open CMsgType

open Library.Wire.Reader

def getServiceFrame : Frame CMsgHead.codec where
  head := { msgType := MSG_GET_SERVICE_REQ }
  body := []
  body_fits := by decide
  head_fits := by decide
  accepted := ⟨by decide, by decide, by decide⟩

def heartFrame : Frame CMsgHead.codec where
  head := { msgType := MSG_HEART_REQ }
  body := []
  body_fits := by decide
  head_fits := by decide
  accepted := ⟨by decide, by decide, by decide⟩

/-- The first header comes in two parts, the second with its length. -/
theorem segmentation_requests :
    (transduce (recv CMsgHead.codec) {}
      [[2, 0, 0, 0, 16], [7], [4, 0, 0, 0, 16, 254, 255, 3]]).1.map Dispatch.content =
        [getServiceFrame, heartFrame].map (·.content) :=
  segmentation [getServiceFrame, heartFrame] _ (by decide) (by decide)

/-- Cut inside its header, the second request is lost and the first is handled three times. -/
theorem segmentation_cut_in_header :
    [[2, 0, 0, 0, 16, 7, 4, 0, 0, 0, 16, 254], [255, 3]].flatten =
        stream [getServiceFrame, heartFrame] ∧
      (transduce (recv CMsgHead.codec) {}
        [[2, 0, 0, 0, 16, 7, 4, 0, 0, 0, 16, 254], [255, 3]]).1.map Dispatch.content ≠
          [getServiceFrame, heartFrame].map (·.content) := by
  decide

end Requests

end MicroserviceFramework.Platform
