import Mathlib.Algebra.Group.Int.Defs
import Mathlib.Algebra.Group.Nat.Defs
import Mathlib.Data.List.Basic
import Mathlib.Tactic.Common

/-!
# The proto3 wire format

A serialised message is a list of fields, each a tag (field number and wire type, as a varint)
and a value: a varint, four or eight raw bytes, or a length and that many bytes. Varints carry
seven bits a byte, lowest first, with the high bit set on every byte but the last.

`read` is a reader for what is written like this. It knows no groups, and no longer varints than
a writer needs. `read_fieldBytes` is the round trip: reading what was written gives the fields
back, for every list of valid fields. A `Kind` is a type of numbers or texts, with the field that
a value is written as.
-/

namespace MicroserviceFramework.Library.Wire

/-- A varint of at most `k + 1` bytes. -/
def varint : Nat → Nat → List UInt8
  | 0, n => [UInt8.ofNat n]
  | k + 1, n =>
    if n < 128 then [UInt8.ofNat n] else UInt8.ofNat (n % 128 + 128) :: varint k (n / 128)

/-- The varint of at most `k` bytes at the front of the input, and the bytes after it. -/
def readVarint : Nat → List UInt8 → Option (Nat × List UInt8)
  | 0, _ | _ + 1, [] => none
  | k + 1, b :: rest =>
    if b.toNat < 128 then some (b.toNat, rest)
    else (readVarint k rest).map fun (n, rest) => (b.toNat - 128 + 128 * n, rest)

theorem readVarint_varint (k n : Nat) (bound : n < 128 ^ (k + 1)) (rest : List UInt8) :
    readVarint (k + 1) (varint k n ++ rest) = some (n, rest) := by
  induction k generalizing n with
  | zero =>
    have small : n < 128 := by simpa using bound
    have byte : n % 256 = n := by omega
    simp [varint, readVarint, byte, small]
  | succ k ih =>
    by_cases small : n < 128
    · have byte : n % 256 = n := by omega
      simp [varint, readVarint, byte, small]
    · have high : n / 128 < 128 ^ (k + 1) := by
        rw [Nat.div_lt_iff_lt_mul (by decide), ← Nat.pow_succ]; exact bound
      have byte : (n % 128 + 128) % 256 = n % 128 + 128 := by omega
      have big : ¬n % 128 + 128 < 128 := by omega
      have value : n % 128 + 128 * (n / 128) = n := Nat.mod_add_div n 128
      simp [varint, readVarint, small, byte, big, ih _ high, value]

theorem varint_ne_nil (k n : Nat) : varint k n ≠ [] := by
  cases k <;> simp only [varint] <;> (try split) <;> simp

/-- A field as it stands on the wire. -/
inductive Field where
  | varint (number value : Nat)
  | fixed64 (number : Nat) (bytes : List UInt8)
  | delimited (number : Nat) (payload : List UInt8)
  | fixed32 (number : Nat) (bytes : List UInt8)
  deriving DecidableEq, Repr

namespace Field

def number : Field → Nat
  | varint n _ | fixed64 n _ | delimited n _ | fixed32 n _ => n

def wireType : Field → Nat
  | varint .. => 0
  | fixed64 .. => 1
  | delimited .. => 2
  | fixed32 .. => 5

def tag (f : Field) : List UInt8 := Wire.varint 4 (f.number * 8 + f.wireType)

/-- The value, after the tag. -/
def value : Field → List UInt8
  | varint _ n => Wire.varint 9 n
  | fixed64 _ raw | fixed32 _ raw => raw
  | delimited _ payload => Wire.varint 4 payload.length ++ payload

def bytes (f : Field) : List UInt8 := f.tag ++ f.value

/-- What a writer can put into a field. -/
def Valid (f : Field) : Prop :=
  0 < f.number ∧ f.number < 2 ^ 29 ∧ match f with
    | varint _ value => value < 2 ^ 64
    | fixed64 _ raw => raw.length = 8
    | delimited _ payload => payload.length < 2 ^ 31
    | fixed32 _ raw => raw.length = 4

end Field

/-- Exactly `n` bytes, or nothing when the input is shorter. -/
def takeExactly (n : Nat) (input : List UInt8) : Option (List UInt8 × List UInt8) :=
  if input.length < n then none else some (input.take n, input.drop n)

theorem takeExactly_append (bytes rest : List UInt8) :
    takeExactly bytes.length (bytes ++ rest) = some (bytes, rest) := by
  simp [takeExactly]

/-- The value after a tag, by wire type. -/
def readValue (number wireType : Nat) (input : List UInt8) : Option (Field × List UInt8) :=
  match wireType with
  | 0 => (readVarint 10 input).map fun (n, rest) => (.varint number (n % 2 ^ 64), rest)
  | 1 => (takeExactly 8 input).map fun (raw, rest) => (.fixed64 number raw, rest)
  | 2 => (readVarint 5 input).bind fun (n, rest) =>
      (takeExactly n rest).map fun (payload, rest) => (.delimited number payload, rest)
  | 5 => (takeExactly 4 input).map fun (raw, rest) => (.fixed32 number raw, rest)
  | _ => none

def readField (input : List UInt8) : Option (Field × List UInt8) :=
  (readVarint 5 input).bind fun (tag, rest) =>
    if tag / 8 = 0 then none else readValue (tag / 8) (tag % 8) rest

theorem readValue_value (f : Field) (valid : f.Valid) (rest : List UInt8) :
    readValue f.number f.wireType (f.value ++ rest) = some (f, rest) := by
  obtain ⟨-, -, content⟩ := valid
  cases f with
  | varint n value =>
    change value < 2 ^ 64 at content
    have fits : value < 128 ^ 10 := by omega
    simp only [Field.number, Field.wireType, Field.value, readValue, readVarint_varint 9 value fits,
      Option.map_some, Nat.mod_eq_of_lt content]
  | fixed64 n raw =>
    change raw.length = 8 at content
    have exact := takeExactly_append raw rest
    rw [content] at exact
    simp [Field.number, Field.wireType, Field.value, readValue, exact]
  | delimited n payload =>
    change payload.length < 2 ^ 31 at content
    have fits : payload.length < 128 ^ 5 := by omega
    simp [Field.number, Field.wireType, Field.value, readValue,
      readVarint_varint 4 payload.length fits, takeExactly_append]
  | fixed32 n raw =>
    change raw.length = 4 at content
    have exact := takeExactly_append raw rest
    rw [content] at exact
    simp [Field.number, Field.wireType, Field.value, readValue, exact]

theorem readField_bytes (f : Field) (valid : f.Valid) (rest : List UInt8) :
    readField (f.bytes ++ rest) = some (f, rest) := by
  have type : f.wireType < 8 := by cases f <;> simp [Field.wireType]
  have fits : f.number * 8 + f.wireType < 128 ^ 5 := by have := valid.2.1; omega
  have number : (f.number * 8 + f.wireType) / 8 = f.number := by omega
  have kind : (f.number * 8 + f.wireType) % 8 = f.wireType := by omega
  have nonzero : f.number ≠ 0 := by have := valid.1; omega
  rw [readField, Field.bytes, Field.tag, List.append_assoc, readVarint_varint 4 _ fits]
  simp only [Option.bind_some, number, kind, nonzero, if_false]
  exact readValue_value f valid rest

theorem Field.bytes_ne_nil (f : Field) : f.bytes ≠ [] := by
  simp [Field.bytes, Field.tag, varint_ne_nil]

/-- The fields read before the input ends or stops making sense, and whether it ended. -/
def readFields : Nat → List UInt8 → List Field × Bool
  | _, [] => ([], true)
  | 0, _ :: _ => ([], false)
  | n + 1, b :: bs =>
    match readField (b :: bs) with
    | none => ([], false)
    | some (f, rest) => (f :: (readFields n rest).1, (readFields n rest).2)

/-- All fields of a message; each takes at least one byte, so the length is fuel enough. -/
def read (input : List UInt8) : List Field × Bool := readFields input.length input

def fieldBytes (fs : List Field) : List UInt8 := fs.flatMap Field.bytes

theorem readFields_fieldBytes (fs : List Field) (valid : ∀ f ∈ fs, f.Valid) (n : Nat)
    (fuel : fs.length ≤ n) : readFields n (fieldBytes fs) = (fs, true) := by
  induction fs generalizing n with
  | nil => cases n <;> rfl
  | cons f fs ih =>
    obtain ⟨n, rfl⟩ : ∃ m, n = m + 1 := ⟨n - 1, by simp at fuel; omega⟩
    have first := readField_bytes f (valid f (by simp)) (fieldBytes fs)
    have rest := ih (fun g hg => valid g (by simp [hg])) n (by simpa using fuel)
    obtain ⟨b, bs, cons⟩ := List.exists_cons_of_ne_nil f.bytes_ne_nil
    simp only [fieldBytes, List.flatMap_cons, cons, List.cons_append] at first rest ⊢
    simp [readFields, first, rest]

theorem length_le_fieldBytes (fs : List Field) : fs.length ≤ (fieldBytes fs).length := by
  induction fs with
  | nil => simp
  | cons f fs ih =>
    have nonempty := List.length_pos_of_ne_nil f.bytes_ne_nil
    simp only [fieldBytes, List.flatMap_cons, List.length_append, List.length_cons] at ih ⊢
    omega

theorem length_bytes_le {f : Field} {fs : List Field} (mem : f ∈ fs) :
    f.bytes.length ≤ (fieldBytes fs).length := by
  obtain ⟨before, after, rfl⟩ := List.append_of_mem mem
  simp only [fieldBytes, List.flatMap_append, List.flatMap_cons, List.length_append]
  omega

theorem Field.payload_length_le (number : Nat) (payload : List UInt8) :
    payload.length ≤ (Field.delimited number payload).bytes.length := by
  simp only [Field.bytes, Field.value, List.length_append]
  omega

theorem read_fieldBytes (fs : List Field) (valid : ∀ f ∈ fs, f.Valid) :
    read (fieldBytes fs) = (fs, true) :=
  readFields_fieldBytes fs valid _ (length_le_fieldBytes fs)

/-! ## Numbers and texts -/

/-- The type of a field. Enumerations are open and travel as `int32`. -/
inductive Kind where
  | int32 | int64 | string | bytes
  deriving DecidableEq, Repr

namespace Kind

abbrev Value : Kind → Type
  | int32 => Int32
  | int64 => Int64
  | string => String
  | bytes => List UInt8

def zero : (k : Kind) → k.Value
  | int32 => 0
  | int64 => 0
  | string => ""
  | bytes => []

/-- A signed number as the 64-bit two's complement word that its varint carries. -/
def word (n : Int) : Nat := (n % 2 ^ 64).toNat

def utf8 (s : String) : List UInt8 := s.toByteArray.data.toList

def ofUtf8? (bytes : List UInt8) : Option String := String.fromUTF8? ⟨bytes.toArray⟩

def write (number : Nat) : (k : Kind) → k.Value → Option Field
  | int32, n => if n = 0 then none else some (.varint number (word n.toInt))
  | int64, n => if n = 0 then none else some (.varint number (word n.toInt))
  | string, s => if s = "" then none else some (.delimited number (utf8 s))
  | bytes, b => if b = [] then none else some (.delimited number b)

/-- What a field of the right number makes of a value; `none` fails. -/
def read : (k : Kind) → Field → k.Value → Option k.Value
  | int32, .varint _ n, _ => some (Int32.ofInt n)
  | int64, .varint _ n, _ => some (Int64.ofInt n)
  | string, .delimited _ payload, _ => ofUtf8? payload
  | bytes, .delimited _ payload, _ => some payload
  | _, _, v => some v

theorem word_lt (n : Int) : word n < 2 ^ 64 := by unfold word; omega

theorem ofInt_word_32 (n : Int32) : Int32.ofInt (word n.toInt) = n := by
  have low := n.le_toInt
  have high := n.toInt_lt
  apply Int32.toInt_inj.mp
  rw [Int32.toInt_ofInt]
  simp only [word, Int.bmod, Int32.size]
  omega

theorem ofInt_word_64 (n : Int64) : Int64.ofInt (word n.toInt) = n := by
  have low := n.le_toInt
  have high := n.toInt_lt
  apply Int64.toInt_inj.mp
  rw [Int64.toInt_ofInt]
  simp only [word, Int.bmod, Int64.size]
  omega

theorem ofUtf8?_utf8 (s : String) : ofUtf8? (utf8 s) = some s := by
  have valid : (ByteArray.mk s.toByteArray.data).IsValidUTF8 := s.isValidUTF8
  simp [ofUtf8?, utf8, String.fromUTF8?, valid, String.fromUTF8]

theorem utf8_eq (s : String) : utf8 s = s.toList.flatMap String.utf8EncodeChar := by
  rw [utf8, ← String.utf8Encode_toList, List.utf8Encode, List.data_toByteArray]

theorem zero_mem_utf8EncodeChar (c : Char) : 0 ∈ String.utf8EncodeChar c ↔ c = Char.ofNat 0 := by
  have value : c = Char.ofNat 0 ↔ c.val.toNat = 0 := by
    rw [Char.ext_iff, ← UInt32.toNat_inj]
    rfl
  rw [value, String.utf8EncodeChar]
  split
  · simp only [List.mem_singleton, ← UInt8.toNat_inj, UInt8.toNat_ofNat', UInt8.toNat_zero]
    omega
  · -- the bytes of a longer encoding have the high bit
    have high (n : Nat) (ge : 128 ≤ n) (lt : n < 256) : 0 ≠ UInt8.ofNat n := by
      simp only [ne_eq, ← UInt8.toNat_inj, UInt8.toNat_ofNat', UInt8.toNat_zero]
      omega
    grind

/-- A zero byte stands for a NUL. -/
theorem zero_mem_utf8 (s : String) : 0 ∈ utf8 s ↔ Char.ofNat 0 ∈ s.toList := by
  simp [utf8_eq, zero_mem_utf8EncodeChar]

/-- A value that is not written is the default. -/
theorem eq_zero_of_write {number : Nat} {k : Kind} {v : k.Value} (skipped : k.write number v = none) :
    v = k.zero := by
  cases k <;> simpa [write, zero] using skipped

theorem write_inv {number : Nat} {k : Kind} {v : k.Value} {f : Field}
    (written : k.write number v = some f) :
    f.number = number ∧ (∀ before, k.read f before = some v) ∧
      (0 < number → number < 2 ^ 29 → f.bytes.length < 2 ^ 31 → f.Valid) := by
  cases k <;>
    · simp only [write, Option.ite_none_left_eq_some, Option.some.injEq] at written
      obtain ⟨-, rfl⟩ := written
      refine ⟨rfl, fun before => ?_, fun pos bound short => ⟨pos, bound, ?_⟩⟩
      · simp [read, ofInt_word_32, ofInt_word_64, ofUtf8?_utf8]
      · first
          | exact word_lt _
          | exact Nat.lt_of_le_of_lt (Field.payload_length_le _ _) short

end Kind

end MicroserviceFramework.Library.Wire
