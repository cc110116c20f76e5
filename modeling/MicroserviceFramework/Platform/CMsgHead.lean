import MicroserviceFramework.Library.Message
import MicroserviceFramework.Platform.CMsg

/-!
# Message headers and their serialisation

`CMsgHead` of `cmsgcom.proto`. What the framing relies on is collected in `HeadCodec`:
`ParseFromArray` inverts `SerializeAsString` on messages within protobuf's limit of 2 GiB, and
no bytes are the default message. Nothing is assumed about other input, where a failed parse
leaves whatever was decoded before it failed. `CMsgHead.codec` is the generated code of
`cmsgcom.pb.cc` with the library that it calls.
-/

namespace MicroserviceFramework.Platform

open Library Library.Wire

/-- Default values are those of proto3. -/
structure CMsgHead where
  msgSize : Int32 := 0
  msgType : CMsgType := 0
  token : String := ""
  serviceName : String := ""
  msgId : Int64 := 0
  deriving DecidableEq, Repr

/-- `ParseFromArray` reports whether it succeeded and leaves contents either way. -/
structure HeadCodec where
  serialize : CMsgHead → List UInt8
  parse : List UInt8 → Bool × CMsgHead
  parse_serialize : ∀ h, (serialize h).length < 2 ^ 31 → parse (serialize h) = (true, h)
  parse_nil : parse [] = (true, {})

/-- Only the default header takes no bytes. -/
theorem HeadCodec.eq_default (codec : HeadCodec) {h : CMsgHead} (empty : codec.serialize h = []) :
    h = {} := by
  have parsed := codec.parse_serialize h (by simp [empty])
  rw [empty, codec.parse_nil] at parsed
  exact (Prod.mk.inj parsed).2.symm

instance : Message CMsgHead where
  layout := (Layout.values [.int32, .int32, .string, .string, .int64]).iso
    (fun (size, type, token, service, id, ()) => ⟨size, type, token, service, id⟩)
    (fun h => (h.msgSize, h.msgType, h.token, h.serviceName, h.msgId, ()))
    (fun _ => rfl) fun _ => rfl
  few := by decide

/-- The generated serialiser and parser. -/
def CMsgHead.codec [Protobuf] : HeadCodec where
  serialize := Message.serialize
  parse := Message.parse
  parse_serialize _ := Message.parse_serialize
  parse_nil := Message.parse_nil rfl

end MicroserviceFramework.Platform
