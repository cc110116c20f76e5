import Mathlib.Data.List.Basic

/-!
# Message buffers

`CMsg` of `cmsg.h`: a size, how much of it has arrived, and the heap block that holds it. The
sizes are C `int`s and can be negative, since the length field of a frame is read straight
into `size`. A fresh block has unspecified contents; the model fills it with zeros.
-/

namespace MicroserviceFramework.Platform

/-- Message types are an open proto3 enumeration: any 32-bit number can arrive. -/
abbrev CMsgType := Int32

namespace CMsgType

def MSG_LOGIN_REQ : CMsgType := 1
def MSG_LOGIN_RES : CMsgType := 2
def MSG_DIR_REQ : CMsgType := 3
def MSG_DIR_RES : CMsgType := 4
def MSG_REGISTER_REQ : CMsgType := 5
def MSG_REGISTER_RES : CMsgType := 6
def MSG_GET_SERVICE_REQ : CMsgType := 7
def MSG_GET_SERVICE_RES : CMsgType := 8
def MSG_UPLOAD_CONFIG_REQ : CMsgType := 9
def MSG_UPLOAD_CONFIG_RES : CMsgType := 10
def MSG_DOWNLOAD_CONFIG_REQ : CMsgType := 11
def MSG_DOWNLOAD_CONFIG_RES : CMsgType := 12
def MSG_DOWNLOAD_ALL_CONFIG_REQ : CMsgType := 13
def MSG_DOWNLOAD_ALL_CONFIG_RES : CMsgType := 14
def MSG_DELETE_CONFIG_REQ : CMsgType := 15
def MSG_DELETE_CONFIG_RES : CMsgType := 16
def MSG_ADD_USER_REQ : CMsgType := 17
def MSG_ADD_USER_RES : CMsgType := 18
def MSG_ADD_LOG_REQ : CMsgType := 211
def MSG_HEART_REQ : CMsgType := 65534

end CMsgType

/-- `MAX_MSG_SIZE`, the bound on a header and on a body. -/
def maxMsgSize : Int := 8192

/-- Bytes written into a block at an offset, the rest of the block as it was. -/
def overwrite (block : List UInt8) (offset : Nat) (bytes : List UInt8) : List UInt8 :=
  block.take offset ++ bytes ++ block.drop (offset + bytes.length)

structure CMsg where
  size : Int := 0
  recvSize : Int := 0
  data : Option (List UInt8) := none
  type : CMsgType := 0
  deriving DecidableEq, Repr

namespace CMsg

def alloc (m : CMsg) (s : Int) : Bool × CMsg :=
  if s ≤ 0 ∨ maxMsgSize < s then (false, m)
  else (true, { m with data := some (List.replicate s.toNat 0), size := s, recvSize := 0 })

/-- Whether all of the message has arrived; an empty message counts as complete. -/
def recved (m : CMsg) : Bool :=
  if m.size < 0 then false else m.recvSize == m.size

/-- The block is deleted and the whole object is zeroed. -/
def clear (_ : CMsg) : CMsg := {}

/-- `readMsg(data_ + recvSize_, ..)` followed by `recvSize_ += len`, for the bytes it read. -/
def store (m : CMsg) (bytes : List UInt8) : CMsg :=
  { m with
    data := m.data.map fun block => overwrite block m.recvSize.toNat bytes
    recvSize := m.recvSize + bytes.length }

/-- The `size_` bytes at `data_`, as the parser and the handlers read them. -/
def bytes (m : CMsg) : List UInt8 := (m.data.getD []).take m.size.toNat

/-- A message wrapped for sending: `data_` and `size_` of a serialised string. -/
def ofBytes (data : List UInt8) : CMsg := { size := data.length, data := some data }

/-- A buffer of `n` bytes of which `got` has arrived. -/
def filled (n : Nat) (got : List UInt8) (type : CMsgType := 0) : CMsg where
  size := n
  recvSize := got.length
  data := some (got ++ List.replicate (n - got.length) 0)
  type := type

variable {n : Nat} {got more : List UInt8} {type : CMsgType}

theorem alloc_accept (m : CMsg) {n : Nat} (pos : 0 < n) (bound : n ≤ 8192) :
    m.alloc n = (true, filled n [] m.type) := by
  have accept : ¬((n : Int) ≤ 0 ∨ maxMsgSize < n) := by unfold maxMsgSize; omega
  rw [alloc, if_neg accept]
  simp [filled]

theorem alloc_refuse (m : CMsg) {s : Int} (h : s ≤ 0 ∨ 8192 < s) : m.alloc s = (false, m) := by
  simp [alloc, maxMsgSize, h]

@[simp] theorem filled_size : (filled n got type).size = n := rfl
@[simp] theorem filled_recvSize : (filled n got type).recvSize = got.length := rfl

@[simp] theorem filled_recved : (filled n got type).recved = decide (got.length = n) := by
  have notNegative : ¬((n : Int) < 0) := by omega
  simp only [filled, recved, notNegative, if_false, Bool.beq_eq_decide_eq, decide_eq_decide]
  omega

theorem filled_store : (filled n got type).store more = filled n (got ++ more) type := by
  simp [filled, store, overwrite, List.drop_append, Nat.sub_sub]

theorem filled_bytes (full : got.length = n) : (filled n got type).bytes = got := by
  subst full; simp [filled, bytes]

end CMsg

end MicroserviceFramework.Platform
