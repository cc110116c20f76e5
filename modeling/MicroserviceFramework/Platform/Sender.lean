import MicroserviceFramework.Platform.CComeTask
import MicroserviceFramework.Platform.Receiver

/-!
# The sending half of a connection

`CMsgEvent::sendMsg` writes a message in three parts: the length of the serialised header, the
header, the body. Each part is a `writeMsg` of its own, and the first that fails ends the call.
`OutFrame` is a header and a body that protobuf can serialise, and its `bytes` are what the
parts add up to.
-/

namespace MicroserviceFramework.Platform

/-- A header with `msg_size` set, as `sendMsg` serialises it. -/
def CMsgHead.sized (head : CMsgHead) (size : Int) : CMsgHead :=
  { head with msgSize := Int32.ofInt size }

namespace CComeTask

/-- The `data` and `size` arguments of the three `writeMsg` calls. -/
def parts (codec : HeadCodec) (head : CMsgHead) (msg : CMsg) : List (Option (List UInt8) × Int) :=
  let headStr := codec.serialize (head.sized msg.size)
  [(some (le32 headStr.length), 4), (some headStr, headStr.length), (msg.data, msg.size)]

/-- The calls in order, until one fails; a write whose outcome is not listed succeeds. -/
def writeAll (t : CComeTask) : List (Option (List UInt8) × Int) → List Bool → Bool × CComeTask
  | [], _ => (true, t)
  | (data, size) :: rest, written =>
    match t.writeMsg data size (written.headD true) with
    | (false, t) => (false, t)
    | (true, t) => t.writeAll rest written.tail

def sendMsg (codec : HeadCodec) (head : Option CMsgHead) (msg : Option CMsg) (written : List Bool)
    (t : CComeTask) : Bool × CComeTask :=
  match head, msg with
  | some head, some msg => t.writeAll (parts codec head msg) written
  | _, _ => (false, t)

/-- What no `writeMsg` changes, a row of them does not. -/
theorem writeAll_same {α : Type*} {f : CComeTask → α}
    (same : ∀ data size written t, f (writeMsg data size written t).2 = f t)
    (calls : List (Option (List UInt8) × Int)) (written : List Bool) (t : CComeTask) :
    f (t.writeAll calls written).2 = f t := by
  fun_induction writeAll t calls written with
  | case1 => rfl
  | case2 t data size rest written t' failed =>
    have kept := same data size (written.headD true) t
    rwa [failed] at kept
  | case3 t data size rest written t' wrote ih =>
    have kept := same data size (written.headD true) t
    rw [wrote] at kept
    exact ih.trans kept

theorem sendMsg_same {α : Type*} {f : CComeTask → α}
    (same : ∀ data size written t, f (writeMsg data size written t).2 = f t) (codec : HeadCodec)
    (head : Option CMsgHead) (msg : Option CMsg) (written : List Bool) (t : CComeTask) :
    f (t.sendMsg codec head msg written).2 = f t := by
  unfold sendMsg
  split
  · exact writeAll_same same _ written t
  · rfl

@[simp] theorem sendMsg_isConnected (codec : HeadCodec) (head : Option CMsgHead) (msg : Option CMsg)
    (written : List Bool) (t : CComeTask) :
    (t.sendMsg codec head msg written).2.isConnected = t.isConnected :=
  sendMsg_same writeMsg_isConnected codec head msg written t

@[simp] theorem sendMsg_serverIp (codec : HeadCodec) (head : Option CMsgHead) (msg : Option CMsg)
    (written : List Bool) (t : CComeTask) :
    (t.sendMsg codec head msg written).2.serverIp = t.serverIp :=
  sendMsg_same writeMsg_serverIp codec head msg written t

/-- The call that writes these bytes. -/
def callOf (data : List UInt8) : Option (List UInt8) × Int := (some data, data.length)

/-- What a row of calls writes: they stop at the first that has no bytes. -/
def written (datas : List (List UInt8)) : List UInt8 := (datas.takeWhile (· ≠ [])).flatten

theorem writeAll_append {t : CComeTask} (up : t.bev.isSome) (datas : List (List UInt8)) :
    (t.writeAll (datas.map callOf) []).2 = t.append (written datas) := by
  induction datas generalizing t with
  | nil => simp [writeAll, written]
  | cons data datas ih =>
    simp only [List.map_cons, callOf, writeAll, List.headD_nil, writeMsg_bytes up]
    cases data with
    | nil => simp [written]
    | cons b bs =>
      have rest := ih ((t.append_bev_isSome (b :: bs)).trans up)
      simpa [written] using rest

end CComeTask

/-- A message to send, within protobuf's limit of 2 GiB. -/
structure OutFrame (codec : HeadCodec) where
  head : CMsgHead
  body : List UInt8
  body_fits : body.length < 2 ^ 31
  head_fits : (codec.serialize (head.sized body.length)).length < 2 ^ 31

namespace OutFrame

variable {codec : HeadCodec} (f : OutFrame codec)

/-- The header as the receiver gets it. -/
def header : CMsgHead := f.head.sized f.body.length

/-- The header on the wire. -/
def headStr : List UInt8 := codec.serialize f.header

def bytes : List UInt8 := le32 f.headStr.length ++ f.headStr ++ f.body

theorem headStr_fits : f.headStr.length < 2 ^ 31 := f.head_fits

@[simp] theorem parse_headStr : codec.parse f.headStr = (true, f.header) :=
  codec.parse_serialize _ f.head_fits

@[simp] theorem header_msgSize : f.header.msgSize.toInt = f.body.length := by
  have fits := f.body_fits
  exact Int32.toInt_ofInt_of_le (by omega) (by omega)

@[simp] theorem leInt_length : leInt (le32 f.headStr.length) = f.headStr.length :=
  leInt_le32 f.headStr_fits

theorem length_bytes : f.bytes.length = 4 + f.headStr.length + f.body.length := by
  simp [bytes, Nat.add_assoc]

/-- A header that takes no bytes announces no body. -/
theorem body_eq_nil (empty : f.headStr = []) : f.body = [] := by
  have default : f.header = {} := codec.eq_default empty
  have size := f.header_msgSize
  rw [default] at size
  have zero : (0 : Int) = f.body.length := size
  exact List.length_eq_zero_iff.mp (by omega)

/-- What the three calls write. -/
def pieces : List (List UInt8) := [le32 f.headStr.length, f.headStr, f.body]

theorem parts_eq : CComeTask.parts codec f.head (.ofBytes f.body) =
    f.pieces.map CComeTask.callOf := rfl

/-- An empty piece ends the call, but nothing is lost by it: after an empty header comes an empty
body. -/
theorem written_pieces : CComeTask.written f.pieces = f.bytes := by
  have size : le32 f.headStr.length ≠ [] := by simp [le32]
  by_cases headed : f.headStr = []
  · simp [CComeTask.written, pieces, bytes, headed, f.body_eq_nil headed, le32]
  · by_cases empty : f.body = []
    · simp [CComeTask.written, pieces, bytes, headed, empty, size]
    · simp [CComeTask.written, pieces, bytes, headed, empty, size]

/-- Without failing writes the whole frame is sent, whatever `sendMsg` returns. -/
theorem sendMsg_append {t : CComeTask} (up : t.bev.isSome) :
    (t.sendMsg codec (some f.head) (some (.ofBytes f.body)) []).2 = t.append f.bytes := by
  rw [CComeTask.sendMsg, f.parts_eq, CComeTask.writeAll_append up, f.written_pieces]

end OutFrame

end MicroserviceFramework.Platform
