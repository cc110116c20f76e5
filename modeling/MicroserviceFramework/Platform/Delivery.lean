import MicroserviceFramework.Platform.Rejection

/-!
# Messages that are reported as sent

The two ends of a connection have different limits. `writeMsg` refuses to write no bytes, and
with that `sendMsg` reports every message without a body as failed, although its frame has been
written and `recvMsg` takes it. `CMsg::alloc` refuses what is longer than `MAX_MSG_SIZE`, and
`sendMsg` does not know of it. Where neither happens, what is reported as sent is what the peer
dispatches.
-/

namespace MicroserviceFramework.Platform

open Library Receiver

variable {codec : HeadCodec}

namespace CComeTask

/-- The calls succeed if they all have bytes to write. -/
theorem writeAll_result {t : CComeTask} (up : t.bev.isSome) (datas : List (List UInt8)) :
    (t.writeAll (datas.map callOf) []).1 = datas.all (· ≠ []) := by
  induction datas generalizing t with
  | nil => rfl
  | cons data datas ih =>
    simp only [List.map_cons, callOf, writeAll, List.headD_nil, writeMsg_bytes up]
    cases data with
    | nil => rfl
    | cons b bs => simpa using ih ((t.append_bev_isSome (b :: bs)).trans up)

end CComeTask

/-- What `sendMsg` returns if no write fails: whether there is a body. -/
theorem OutFrame.sendMsg_result {t : CComeTask} (up : t.bev.isSome) (f : OutFrame codec) :
    (t.sendMsg codec (some f.head) (some (.ofBytes f.body)) []).1 = decide (f.body ≠ []) := by
  rw [CComeTask.sendMsg, f.parts_eq, CComeTask.writeAll_result up]
  have headless := f.body_eq_nil
  grind [OutFrame.pieces, le32]

/-- libevent has sent everything that was written. -/
def CComeTask.flushed (t : CComeTask) : CComeTask :=
  { t with bev := t.bev.map fun bev => { bev with output := [] } }

/-- A connection object that sends, and the one at the other end. -/
structure Link where
  sender : CComeTask
  peer : Receiver

namespace Link

/-- A connection that has just been made. -/
def start (t : CComeTask) : Link := ⟨{ t with bev := some {} }, {}⟩

/-- `sendMsg`, all of whose writes succeed. The peer gets what was written, and its read callback
runs. -/
def send (l : Link) (f : OutFrame codec) : Bool × List Dispatch × Link :=
  let (sent, sender) := l.sender.sendMsg codec (some f.head) (some (.ofBytes f.body)) []
  let (dispatches, peer) := recv codec l.peer sender.output
  (sent, dispatches, ⟨sender.flushed, peer⟩)

/-- The messages for which `sendMsg` returned true, and what the peer dispatches. -/
def exchange : Link → List (OutFrame codec) → List (OutFrame codec) × List Dispatch
  | _, [] => ([], [])
  | l, f :: fs =>
    let (sent, dispatches, l) := l.send f
    let (later, dispatched) := l.exchange fs
    (if sent then f :: later else later, dispatches ++ dispatched)

/-- The peer dispatches the messages that are reported as sent, each from its own bytes. -/
structure Delivers (l : Link) (frames : List (OutFrame codec)) : Prop where
  dispatched : (l.exchange frames).2.map Dispatch.content =
    (l.exchange frames).1.map OutFrame.content
  aligned : Aligned l.peer frames

/-- A connection that has nothing left to send. -/
structure Ready (t : CComeTask) : Prop where
  up : t.bev.isSome
  empty : t.output = []

theorem Ready.flushed {t : CComeTask} (up : t.bev.isSome) : Ready t.flushed := by
  obtain ⟨bev, made⟩ := Option.isSome_iff_exists.mp up
  constructor <;> simp [CComeTask.flushed, CComeTask.output, made]

theorem Ready.start (t : CComeTask) : Ready (Link.start t).sender := ⟨rfl, rfl⟩

/-- A frame at a time reaches the peer, and is reported as sent if it has a body. -/
theorem send_eq {l : Link} (ready : Ready l.sender) (f : OutFrame codec) :
    ∃ sender, Ready sender ∧ l.send f = (decide (f.body ≠ []), (recv codec l.peer f.bytes).1,
      ⟨sender, (recv codec l.peer f.bytes).2⟩) := by
  have result := f.sendMsg_result ready.up
  have written := f.sendMsg_append ready.up
  have output := CComeTask.append_output ready.up f.bytes
  rw [ready.empty, List.nil_append] at output
  have up : (l.sender.append f.bytes).bev.isSome := (l.sender.append_bev_isSome _).trans ready.up
  have sent : l.sender.sendMsg codec (some f.head) (some (.ofBytes f.body)) [] =
      (decide (f.body ≠ []), l.sender.append f.bytes) := Prod.ext result written
  refine ⟨(l.sender.append f.bytes).flushed, .flushed up, ?_⟩
  simp only [send, sent, output]

theorem exchange_eq {l : Link} (ready : Ready l.sender) (frames : List (OutFrame codec)) :
    l.exchange frames = (frames.filter (·.body ≠ []), (deliver l.peer frames).1) := by
  induction frames generalizing l with
  | nil => rfl
  | cons f fs ih =>
    obtain ⟨sender, again, sent⟩ := send_eq ready f
    rw [exchange, sent]
    dsimp only
    rw [ih (l := ⟨sender, _⟩) again, List.filter_cons]
    rfl

end Link

/-! ## When the two agree -/

namespace OutFrame

/-- The receiver takes the message, and `sendMsg` reports it as sent. A header without bytes
comes to nothing at both ends. -/
structure Deliverable (f : OutFrame codec) : Prop where
  fits : f.Fits
  bodied : f.headStr ≠ [] → f.body ≠ []

/-- The receiver refuses the header, and `sendMsg` reports the message as failed. What is left of
the header stays in the receiver's input. -/
structure Refused (f : OutFrame codec) : Prop where
  long : 8192 < f.headStr.length
  bodiless : f.body = []

/-- Whether a frame fits is seen from its content. -/
theorem Fits.of_content {f g : OutFrame codec} (fits : f.Fits) (same : f.content = g.content) :
    g.Fits := by
  obtain ⟨header, body⟩ := Prod.mk.inj same
  have headStr : f.headStr = g.headStr := congrArg codec.serialize header
  exact ⟨headStr ▸ fits.head, body ▸ fits.body⟩

theorem not_fits_bodiless {f : OutFrame codec} (long : ¬f.Fits) (bodiless : f.body = []) :
    f.Refused := by
  refine ⟨?_, bodiless⟩
  by_contra small
  exact long ⟨by omega, by simp [bodiless]⟩

end OutFrame

/-- If the messages that are taken are those with a body, then none is too long, and none that is
taken has no body. -/
theorem taken_eq_bodied {frames : List (OutFrame codec)}
    (same : (frames.filter OutFrame.taken).map OutFrame.content =
      (frames.filter (·.body ≠ [])).map OutFrame.content) :
    ∀ f ∈ frames, f.Deliverable ∨ f.Refused := by
  have bodied_fits : ∀ f ∈ frames, f.body ≠ [] → f.Fits := by
    intro f mem bodied
    have sent : f.content ∈ (frames.filter (·.body ≠ [])).map OutFrame.content :=
      List.mem_map_of_mem (List.mem_filter.mpr ⟨mem, by simpa using bodied⟩)
    rw [← same] at sent
    obtain ⟨g, taken, content⟩ := List.mem_map.mp sent
    have fits : g.Fits := by grind [OutFrame.taken]
    exact fits.of_content content
  have bodied_taken : frames.filter (·.body ≠ []) =
      (frames.filter OutFrame.taken).filter (·.body ≠ []) := by
    rw [List.filter_filter]
    apply List.filter_congr
    intro f mem
    have headless := f.body_eq_nil
    grind [OutFrame.taken]
  have lengths := congrArg List.length same
  rw [List.length_map, List.length_map, bodied_taken] at lengths
  have taken_bodied := List.length_filter_eq_length_iff.mp lengths.symm
  intro f mem
  by_cases fits : f.Fits
  · refine .inl ⟨fits, fun headed => ?_⟩
    have taken : f ∈ frames.filter OutFrame.taken :=
      List.mem_filter.mpr ⟨mem, by simp [OutFrame.taken, fits, headed]⟩
    simpa using taken_bodied f taken
  · refine .inr (OutFrame.not_fits_bodiless fits ?_)
    by_contra bodied
    exact fits (bodied_fits f mem bodied)

/-- The other way round. -/
theorem taken_eq_of_agree {frames : List (OutFrame codec)}
    (agree : ∀ f ∈ frames, f.Deliverable ∨ f.Refused) :
    frames.filter OutFrame.taken = frames.filter (·.body ≠ []) := by
  apply List.filter_congr
  intro f mem
  have headless := f.body_eq_nil
  rcases agree f mem with ⟨fits, bodied⟩ | ⟨long, bodiless⟩
  · grind [OutFrame.taken]
  · have notFits : ¬f.Fits := fun fits => by have := fits.head; omega
    simp [OutFrame.taken, notFits, bodiless]

/-- What is reported as sent is received, and nothing else, exactly when every header and body is
within `MAX_MSG_SIZE` and no message is without a body; the last may also have a header that is
too long and no body. -/
theorem delivers_iff (t : CComeTask) (frames : List (OutFrame codec)) :
    (Link.start t).Delivers frames ↔ (∀ f ∈ frames.dropLast, f.Deliverable) ∧
      ∀ f ∈ frames.getLast?, f.Deliverable ∨ f.Refused := by
  have run := Link.exchange_eq (.start t) frames
  constructor
  · rintro ⟨dispatched, aligned⟩
    have fit := (aligned_iff frames none).mp aligned
    rw [run] at dispatched
    have agree := taken_eq_bodied ((deliver_contents frames none fit).symm.trans dispatched)
    refine ⟨fun f mem => ?_, fun f mem => agree f (List.mem_of_getLast? mem)⟩
    rcases agree f (List.dropLast_subset _ mem) with deliverable | refused
    · exact deliverable
    · have := (fit f mem).head
      have := refused.long
      omega
  · rintro ⟨before, last⟩
    have fit : ∀ f ∈ frames.dropLast, f.Fits := fun f mem => (before f mem).fits
    have agree : ∀ f ∈ frames, f.Deliverable ∨ f.Refused := by
      intro f mem
      rcases List.eq_nil_or_concat frames with rfl | ⟨fs, g, rfl⟩
      · cases mem
      · simp only [List.concat_eq_append, List.dropLast_concat, List.getLast?_concat,
          Option.mem_some_iff, forall_eq'] at before last mem
        rcases List.mem_append.mp mem with early | late
        · exact .inl (before f early)
        · obtain rfl := List.mem_singleton.mp late
          exact last
    refine ⟨?_, (aligned_iff frames none).mpr fit⟩
    rw [run, ← taken_eq_of_agree agree]
    exact deliver_contents frames none fit

/-- A heartbeat has no body: the peer dispatches it, and `sendMsg` returns false. -/
theorem heartbeat_reported_failed :
    ¬(Link.start {}).Delivers [heartFrame.toOutFrame] := by
  intro holds
  exact absurd holds.dispatched (by decide)

end MicroserviceFramework.Platform
