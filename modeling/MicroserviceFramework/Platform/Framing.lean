import MicroserviceFramework.Platform.ReceiveStates
import MicroserviceFramework.Platform.Sender

/-!
# Frames and the receiver

What a frame does to a receiver, part by part, and what a receiver that was stopped inside a
part does with the rest. Bytes that wait in `head_` or `msg_` and bytes that wait in the input
make no difference (`readCb_inHead_shift`, `readCb_inBody_shift`); this is why most ways of
cutting a stream are harmless.
-/

namespace MicroserviceFramework.Platform

open Receiver

namespace Receiver

variable {codec : HeadCodec} {n : Nat} (got read : List UInt8)

/-- Input that reaches a given length splits there. -/
theorem exists_split (k : Nat) (input : List UInt8) (pos : 0 < k) (enough : k ≤ input.length) :
    ∃ more rest, input = more ++ rest ∧ more.length = k ∧ more ≠ [] := by
  refine ⟨input.take k, input.drop k, (List.take_append_drop k input).symm, ?_, ?_⟩
  · simp [enough]
  · intro empty
    have length := congrArg List.length empty
    simp [enough] at length
    omega

/-- Header bytes may as well still be in the input. -/
theorem readCb_inHead_shift (pb : Option CMsgHead) (short : (got ++ read).length < n)
    (input : List UInt8) :
    readCb codec (inHead n got pb (read ++ input)) =
      readCb codec (inHead n (got ++ read) pb input) := by
  have pos : 0 < n := by omega
  rw [List.length_append] at short
  apply readCb_congr
  have same : (inHead n got pb (read ++ input)).recvMsg codec =
      (inHead n (got ++ read) pb input).recvMsg codec := by
    by_cases still : got.length + read.length + input.length < n
    · rw [recvMsg_inHead_short codec pb _ pos (by simp; omega),
        recvMsg_inHead_short codec pb _ pos (by simpa using still), List.append_assoc]
    · obtain ⟨more, rest, rfl, size, progress⟩ :=
        exists_split (n - got.length - read.length) input (by omega) (by omega)
      have whole : (got ++ (read ++ more)).length = n := by simp; omega
      have whole' : (got ++ read ++ more).length = n := by simpa using whole
      have fromStart := recvHead_inHead_full codec pb rest whole (by simp [progress])
      have fromHere := recvHead_inHead_full codec pb rest whole' progress
      rw [List.append_assoc] at fromStart fromHere
      rw [recvMsg, recvMsg, recvSize_inHead _ _ _ pos, recvSize_inHead _ _ _ pos]
      simp only [fromStart, fromHere]
  rw [turn, turn, same]

/-- And so may body bytes. -/
theorem readCb_inBody_shift {hdr : List UInt8} (headed : hdr ≠ []) (p : CMsgHead)
    (short : (got ++ read).length < n) (input : List UInt8) :
    readCb codec (inBody hdr p n got (read ++ input)) =
      readCb codec (inBody hdr p n (got ++ read) input) := by
  rw [List.length_append] at short
  by_cases still : got.length + read.length + input.length < n
  · rw [readCb_of_waits (turn_inBody_wait codec _ headed p (by simp; omega)),
      readCb_of_waits (turn_inBody_wait codec _ headed p (by simpa using still)),
      List.append_assoc]
  · obtain ⟨more, rest, rfl, size, progress⟩ :=
      exists_split (n - got.length - read.length) input (by omega) (by omega)
    have whole : (got ++ read ++ more).length = n := by simp; omega
    have whole' : (got ++ (read ++ more)).length = n := by simpa using whole
    have fromStart := turn_inBody_dispatch codec headed p rest whole' (by simp [progress])
    have fromHere := turn_inBody_dispatch codec headed p rest whole progress
    rw [← List.append_assoc, readCb_of_dispatches fromStart, readCb_of_dispatches fromHere,
      List.append_assoc]

end Receiver

namespace OutFrame

variable {codec : HeadCodec} (f : OutFrame codec)

def content : CMsgHead × List UInt8 := (f.header, f.body)

/-- What the handler is called with when the frame arrives. -/
def dispatch : Dispatch :=
  if f.body = [] then ⟨f.header, { type := f.header.msgType }⟩
  else ⟨f.header, .filled f.body.length f.body f.header.msgType⟩

@[simp] theorem dispatch_content : f.dispatch.content = f.content := by
  unfold dispatch content
  split
  next empty => simp [Dispatch.content, CMsg.bytes, empty]
  next => simp [Dispatch.content, CMsg.filled_bytes]

/-- The receiver takes a header and a body of these sizes. -/
structure Accepted : Prop where
  headed : f.headStr ≠ []
  head_small : f.headStr.length ≤ 8192
  body_small : f.body.length ≤ 8192

variable {f} (pb : Option CMsgHead) (rest : List UInt8)

/-! ## A frame from its start -/

theorem readCb_length (accepted : f.Accepted) :
    readCb codec (idle pb (le32 f.headStr.length ++ rest)) =
      readCb codec (inHead f.headStr.length [] pb rest) := by
  have pos := List.length_pos_of_ne_nil accepted.headed
  refine readCb_congr (turn_idle_accept codec pb _ ?_ pos accepted.head_small)
  exact f.leInt_length

/-- The last bytes of the header come: an empty body makes the message complete. -/
theorem readCb_header_empty {got more : List UInt8} (whole : got ++ more = f.headStr)
    (progress : more ≠ []) (empty : f.body = []) :
    readCb codec (inHead f.headStr.length got pb (more ++ rest)) =
      (f.dispatch :: (readCb codec (idle (some f.header) rest)).1,
        (readCb codec (idle (some f.header) rest)).2) := by
  have parse : codec.parse (got ++ more) = (true, f.header) := by rw [whole, f.parse_headStr]
  have size : f.header.msgSize = 0 := by
    apply Int32.toInt_inj.mp
    rw [f.header_msgSize, empty]
    rfl
  have turn := turn_inHead_empty codec pb rest (by rw [whole]) progress parse size
  simpa [dispatch, empty] using readCb_of_dispatches turn

/-- The last bytes of the header come, and a body is next. -/
theorem readCb_header {got more : List UInt8} (whole : got ++ more = f.headStr)
    (progress : more ≠ []) (nonempty : f.body ≠ []) (small : f.body.length ≤ 8192) :
    readCb codec (inHead f.headStr.length got pb (more ++ rest)) =
      readCb codec (inBody f.headStr f.header f.body.length [] rest) := by
  have parse : codec.parse (got ++ more) = (true, f.header) := by rw [whole, f.parse_headStr]
  have turn := turn_inHead_accept codec pb rest (by rw [whole]) progress parse
    f.header_msgSize (List.length_pos_of_ne_nil nonempty) small
  rw [whole] at turn
  exact readCb_congr turn

theorem readCb_body {got more : List UInt8} (headed : f.headStr ≠ [])
    (whole : got ++ more = f.body) (progress : more ≠ []) :
    readCb codec (inBody f.headStr f.header f.body.length got (more ++ rest)) =
      (f.dispatch :: (readCb codec (idle (some f.header) rest)).1,
        (readCb codec (idle (some f.header) rest)).2) := by
  have nonempty : f.body ≠ [] := by rw [← whole]; simp [progress]
  have turn := turn_inBody_dispatch codec headed f.header rest (by rw [whole]) progress
  rw [whole] at turn
  simpa [dispatch, nonempty] using readCb_of_dispatches turn

/-- A whole frame calls its handler, whatever was received before it. -/
theorem readCb_bytes (accepted : f.Accepted) :
    readCb codec (idle pb (f.bytes ++ rest)) =
      (f.dispatch :: (readCb codec (idle (some f.header) rest)).1,
        (readCb codec (idle (some f.header) rest)).2) := by
  rw [bytes, List.append_assoc, List.append_assoc, readCb_length pb _ accepted]
  by_cases empty : f.body = []
  · rw [empty, List.nil_append, readCb_header_empty pb rest (List.nil_append _) accepted.headed empty]
  · rw [readCb_header pb (f.body ++ rest) (List.nil_append _) accepted.headed empty
      accepted.body_small, readCb_body rest accepted.headed (List.nil_append _) empty]

end OutFrame

end MicroserviceFramework.Platform
