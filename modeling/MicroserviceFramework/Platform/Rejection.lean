import MicroserviceFramework.Platform.Segmentation

/-!
# Frames the receiver rejects

`sendMsg` has no size limit, `CMsg::alloc` has one. A frame over the limit is given up in the
middle: `readCb()` clears its buffers and returns, and what is left of the frame stays in the
input, where the next call takes it for a frame. So a receiver that is handed one frame at a
time stays aligned with them exactly as long as no frame but the last is over the limit.
-/

namespace MicroserviceFramework.Platform

open Library Receiver

variable {codec : HeadCodec}

namespace OutFrame

variable {f : OutFrame codec} (pb : Option CMsgHead) (rest : List UInt8)

/-- The header and the body are within `MAX_MSG_SIZE`. -/
structure Fits (f : OutFrame codec) : Prop where
  head : f.headStr.length ≤ 8192
  body : f.body.length ≤ 8192

instance (f : OutFrame codec) : Decidable f.Fits :=
  decidable_of_iff (f.headStr.length ≤ 8192 ∧ f.body.length ≤ 8192)
    ⟨fun ⟨head, body⟩ => ⟨head, body⟩, fun ⟨head, body⟩ => ⟨head, body⟩⟩

/-- What the receiver makes of a frame that fits; without header bytes there is no message. -/
def dispatched (f : OutFrame codec) : List Dispatch := if f.headStr = [] then [] else [f.dispatch]

/-- A frame that the receiver takes a message from. -/
def taken (f : OutFrame codec) : Bool := decide f.Fits && decide (f.headStr ≠ [])

/-- A length of zero is refused, and nothing follows it. -/
theorem readCb_headless (headless : f.headStr = []) :
    readCb codec (idle pb (f.bytes ++ rest)) = ([], idle pb rest) := by
  have zero : (f.bytes ++ rest).take 4 = le32 0 := by
    simp [bytes, headless, f.body_eq_nil headless]
  have turn := turn_idle_reject codec pb (f.bytes ++ rest) (by rw [zero]; decide)
  rw [readCb_of_fails turn]
  simp [bytes, headless, f.body_eq_nil headless]

/-- The length is refused, and the header it announces stays. -/
theorem readCb_long_head (long : 8192 < f.headStr.length) :
    readCb codec (idle pb (f.bytes ++ rest)) =
      ([], idle pb (f.headStr ++ (f.body ++ rest))) := by
  have size : (f.bytes ++ rest).take 4 = le32 f.headStr.length := by simp [bytes]
  have turn := turn_idle_reject codec pb (f.bytes ++ rest)
    (by rw [size, f.leInt_length, acceptable_iff]; omega)
  rw [readCb_of_fails turn]
  simp [bytes]

/-- The header is parsed, and the body it announces stays. -/
theorem readCb_long_body (headed : f.headStr ≠ []) (small : f.headStr.length ≤ 8192)
    (long : 8192 < f.body.length) :
    readCb codec (idle pb (f.bytes ++ rest)) = ([], idle (some f.header) (f.body ++ rest)) := by
  have pos := List.length_pos_of_ne_nil headed
  have nonempty : f.header.msgSize ≠ 0 := by
    intro zero
    have size := f.header_msgSize
    rw [zero] at size
    have : (0 : Int) = f.body.length := size
    omega
  have turn := turn_inHead_refused codec pb (f.body ++ rest)
    (show ([] ++ f.headStr).length = f.headStr.length from rfl) headed
    f.parse_headStr nonempty (by rw [f.header_msgSize, acceptable_iff]; omega)
  have start := turn_idle_accept codec pb (f.bytes ++ rest)
    (by simp [bytes]) pos small
  rw [readCb_congr start, show (f.bytes ++ rest).drop 4 = f.headStr ++ (f.body ++ rest) by
    simp [bytes]]
  exact readCb_of_fails turn

end OutFrame

/-! ## One frame at a time -/

/-- Each frame arrives whole, and the read callback runs after it. -/
def deliver (r : Receiver) (frames : List (OutFrame codec)) : List Dispatch × Receiver :=
  transduce (recv codec) r (frames.map (·.bytes))

/-- A frame that fits is used up. -/
theorem recv_fits {f : OutFrame codec} (fits : f.Fits) (pb : Option CMsgHead) :
    ∃ pb', recv codec (idle pb []) f.bytes = (f.dispatched, idle pb' []) := by
  by_cases headed : f.headStr = []
  · have whole := OutFrame.readCb_headless pb [] headed
    rw [List.append_nil] at whole
    exact ⟨pb, by simpa [OutFrame.dispatched, headed, recv_idle] using whole⟩
  · have whole := OutFrame.readCb_bytes pb [] ⟨headed, fits.head, fits.body⟩
    rw [List.append_nil, readCb_idle_nil] at whole
    exact ⟨some f.header, by simpa [OutFrame.dispatched, headed, recv_idle] using whole⟩

/-- A frame that does not fit leaves bytes behind. -/
theorem recv_not_fits {f : OutFrame codec} (long : ¬f.Fits) (pb : Option CMsgHead) :
    ∃ pb' left, recv codec (idle pb []) f.bytes = ([], idle pb' left) ∧ left ≠ [] := by
  by_cases head : f.headStr.length ≤ 8192
  · have body : 8192 < f.body.length := by
      by_contra small
      exact long ⟨head, by omega⟩
    have headed : f.headStr ≠ [] := by
      intro empty
      simp [f.body_eq_nil empty] at body
    have whole := OutFrame.readCb_long_body pb [] headed head body
    rw [List.append_nil, List.append_nil] at whole
    exact ⟨some f.header, f.body, whole, List.ne_nil_of_length_pos (by omega)⟩
  · have whole := OutFrame.readCb_long_head (f := f) pb [] (by omega)
    rw [List.append_nil, List.append_nil] at whole
    exact ⟨pb, f.headStr ++ f.body, whole, List.ne_nil_of_length_pos (by simp; omega)⟩

/-- No frame is delivered while part of an earlier one is unread: the receiver takes no bytes for
the start of a frame that are not. -/
def Aligned : Receiver → List (OutFrame codec) → Prop
  | _, [] => True
  | r, f :: fs => r.input = [] ∧ Aligned (recv codec r f.bytes).2 fs

/-- The receiver dispatches frames that were sent, in order, and no part of one as another. -/
structure NoSmuggling (frames : List (OutFrame codec)) : Prop where
  subsequence : ((deliver {} frames).1.map Dispatch.content).Sublist (frames.map (·.content))
  aligned : Aligned {} frames

theorem aligned_iff (frames : List (OutFrame codec)) (pb : Option CMsgHead) :
    Aligned (idle pb []) frames ↔ ∀ f ∈ frames.dropLast, f.Fits := by
  induction frames generalizing pb with
  | nil => simp [Aligned]
  | cons f fs ih =>
    cases fs with
    | nil => simp [Aligned]
    | cons g gs =>
      rw [List.dropLast_cons_of_ne_nil (by simp), List.forall_mem_cons, Aligned]
      by_cases fits : f.Fits
      · obtain ⟨pb', received⟩ := recv_fits fits pb
        rw [received, ih pb']
        simp [fits]
      · obtain ⟨pb', left, received, nonempty⟩ := recv_not_fits fits pb
        simp [received, Aligned, fits, nonempty]

/-- The messages that are dispatched, as long as no frame but the last is over the limit. -/
theorem deliver_contents (frames : List (OutFrame codec)) (pb : Option CMsgHead)
    (fit : ∀ f ∈ frames.dropLast, f.Fits) :
    (deliver (idle pb []) frames).1.map Dispatch.content =
      (frames.filter OutFrame.taken).map OutFrame.content := by
  induction frames generalizing pb with
  | nil => rfl
  | cons f fs ih =>
    have split : (deliver (idle pb []) (f :: fs)).1 =
        (recv codec (idle pb []) f.bytes).1 ++
          (deliver (recv codec (idle pb []) f.bytes).2 fs).1 := rfl
    rw [split, List.map_append]
    by_cases fits : f.Fits
    · obtain ⟨pb', received⟩ := recv_fits fits pb
      have later := ih pb' fun g mem => fit g <| by
        cases fs with
        | nil => simp at mem
        | cons => simp [mem]
      rw [received, later, OutFrame.dispatched]
      by_cases headed : f.headStr = [] <;> simp [OutFrame.taken, headed, fits]
    · obtain rfl : fs = [] := by
        by_contra more
        exact fits (fit f (by simp [List.dropLast_cons_of_ne_nil more]))
      obtain ⟨pb', left, received, -⟩ := recv_not_fits fits pb
      simp [received, deliver, transduce, OutFrame.taken, fits]

theorem deliver_sublist (frames : List (OutFrame codec)) (pb : Option CMsgHead)
    (fit : ∀ f ∈ frames.dropLast, f.Fits) :
    ((deliver (idle pb []) frames).1.map Dispatch.content).Sublist
      (frames.map (·.content)) := by
  rw [deliver_contents frames pb fit]
  exact List.filter_sublist.map _

/-- No message is smuggled in exactly when no frame but the last is over the size limit. -/
theorem noSmuggling_iff (frames : List (OutFrame codec)) :
    NoSmuggling frames ↔ ∀ f ∈ frames.dropLast, f.Fits :=
  ⟨fun holds => (aligned_iff frames none).mp holds.aligned, fun fit =>
    ⟨deliver_sublist frames none fit, (aligned_iff frames none).mpr fit⟩⟩

/-! ## A request inside a request -/

section Smuggling

open CMsgType

/-- A frame of its own: the header of an add-user request without a body. -/
def addUserBytes : List UInt8 := le32 2 ++ [16, 17]

open Library.Wire.Reader

/-- A login request whose body is one byte too long and starts with `addUserBytes`. -/
def longLogin : OutFrame CMsgHead.codec where
  head := { msgType := MSG_LOGIN_REQ }
  body := addUserBytes ++ List.replicate 8187 0
  body_fits := by rw [List.length_append, List.length_replicate]; decide
  head_fits := by rw [List.length_append, List.length_replicate]; decide

theorem longLogin_length : longLogin.body.length = 8193 := by
  rw [longLogin, List.length_append, List.length_replicate]; rfl

theorem longLogin_header : longLogin.headStr = [8, 129, 64, 16, 1] := by
  rw [OutFrame.headStr, OutFrame.header, longLogin_length]; decide

theorem parse_addUser :
    CMsgHead.codec.parse [16, 17] = (true, { msgType := MSG_ADD_USER_REQ }) := by decide

/-- The next call takes the body for a frame and handles a request that was never sent. -/
theorem add_user_smuggled :
    ¬((deliver {} [longLogin, getServiceFrame.toOutFrame]).1.map Dispatch.content).Sublist
      ([longLogin, getServiceFrame.toOutFrame].map (·.content)) := by
  have first := OutFrame.readCb_long_body (f := longLogin) none []
    (by simp [longLogin_header]) (by simp [longLogin_header]) (by simp [longLogin_length])
  rw [List.append_nil, List.append_nil] at first
  have size := turn_idle_accept CMsgHead.codec (some longLogin.header)
    (longLogin.body ++ getServiceFrame.bytes) (n := 2) rfl (by decide) (by decide)
  have head := turn_inHead_empty CMsgHead.codec (some longLogin.header)
    (List.replicate 8187 0 ++ getServiceFrame.bytes)
    (show ([] ++ [16, 17] : List UInt8).length = 2 from rfl) (by simp) parse_addUser rfl
  have second : (recv CMsgHead.codec (idle (some longLogin.header) longLogin.body)
      getServiceFrame.bytes).1.map Dispatch.content =
        ({ msgType := MSG_ADD_USER_REQ }, []) :: _ :=
    congrArg (fun result => result.1.map Dispatch.content)
      ((readCb_congr size).trans (readCb_of_dispatches head))
  have run : (deliver {} [longLogin, getServiceFrame.toOutFrame]).1 =
      (recv CMsgHead.codec (idle (some longLogin.header) longLogin.body) getServiceFrame.bytes).1 := by
    have start : recv CMsgHead.codec {} longLogin.bytes =
      ([], idle (some longLogin.header) longLogin.body) := first
    simp [deliver, transduce, start]
  intro sublist
  rw [run, second] at sublist
  have sent := sublist.subset (List.mem_cons_self ..)
  simp only [List.map_cons, List.map_nil, List.mem_cons, List.not_mem_nil, or_false] at sent
  rcases sent with login | getService
  · have size := congrArg (fun content => content.2.length) login
    simp only [OutFrame.content, longLogin_length] at size
    exact absurd size (by decide)
  · have type := congrArg (fun content => content.1.msgType) getService
    exact absurd type (by decide)

end Smuggling

end MicroserviceFramework.Platform
