import MicroserviceFramework.Library.Layout

/-!
# Messages and the library that reads them

A message type has a layout, and `Message.serialize` writes by it. What reads is the protobuf
library, and of it only what it promises is known: a message within its limit comes back as it was
written. `Protobuf` is that promise, and `Message.parse` a reader of which nothing else is said.

That there are such readers, and what one of them makes of given bytes, is in `Reader`.
-/

namespace MicroserviceFramework.Library.Wire

/-- The generated code of any message type. -/
structure Codec (M : Type) where
  parse : List UInt8 → Bool × M
  serialize : M → List UInt8

/-- A value of each kind. -/
abbrev Values : List Kind → Type
  | [] => Unit
  | k :: ks => k.Value × Values ks

/-- Numbers and texts, one after the other. -/
def Layout.values : (ks : List Kind) → Layout (Values ks)
  | [] => .nil
  | k :: ks => .cons (.scalar k) (values ks)

class Message (M : Type) where
  layout : Layout M
  few : layout.size < 1000

namespace Message

variable {M : Type} [Message M]

def serialize (m : M) : List UInt8 := layout.serialize m

/-- Only one message takes no bytes. -/
theorem eq_of_serialize_nil {m m' : M} (empty : serialize m = []) (empty' : serialize m' = []) :
    m = m' := by
  have back : (layout : Layout M).parse (serialize m) = (true, m) :=
    Layout.parse_serialize few (by rw [← serialize, empty]; decide)
  have back' : (layout : Layout M).parse (serialize m') = (true, m') :=
    Layout.parse_serialize few (by rw [← serialize, empty']; decide)
  rw [empty, ← empty', back'] at back
  exact (congrArg Prod.snd back).symm

end Message

/-- A library that reads messages within the limit of 2 GiB as they were written.
`ParseFromArray` reports whether it succeeded and leaves contents either way. -/
class Protobuf where
  parse (M : Type) [Message M] : List UInt8 → Bool × M
  parse_serialize (M : Type) [Message M] (m : M) :
    (Message.serialize m).length < 2 ^ 31 → parse M (Message.serialize m) = (true, m)

namespace Message

variable [Protobuf] {M : Type} [Message M]

def parse (input : List UInt8) : Bool × M := Protobuf.parse M input

def codec : Codec M := ⟨parse, serialize⟩

theorem parse_serialize {m : M} (fits : (serialize m).length < 2 ^ 31) :
    parse (serialize m) = (true, m) :=
  Protobuf.parse_serialize M m fits

/-- Of no bytes, the message is read that is written as none. -/
theorem parse_nil {m : M} (empty : serialize m = []) : parse [] = (true, m) := by
  have back := parse_serialize (m := m) (by simp [empty])
  rwa [empty] at back

end Message

namespace Reader

/-- The reader that takes the fields one after the other. -/
scoped instance protobuf : Protobuf where
  parse _ := Message.layout.parse
  parse_serialize _ := fun _ => Layout.parse_serialize Message.few

end Reader

end MicroserviceFramework.Library.Wire
