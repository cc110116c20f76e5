import MicroserviceFramework.Library.Wire
import Mathlib.Data.List.AList

/-!
# Messages with messages in them

A message is written one field after the other: a `Slot` says how a field is written, and how the
reader of the wire format gets its value back, a `Layout` the same of all fields. Both have the facts
that make a round trip, so a layout that is put together from slots, and a slot for the messages of
a layout, has it without a proof of its own.

A field may be a number or a text, a message, a list of messages or a map from texts to messages.
The entries of a map are written in the order in which the list has them.
-/

namespace MicroserviceFramework.Library.Wire

/-- Fields come one after the other until one makes no sense. What came before it stays, and what
was read of it. -/
def feed {V : Type} (read : Field → V → Bool × V) : V → List Field → Bool × V
  | v, [] => (true, v)
  | v, f :: fs =>
    match read f v with
    | (false, v) => (false, v)
    | (true, v) => feed read v fs

/-- Protobuf's limit of 2 GiB. -/
def Short (fs : List Field) : Prop := (fieldBytes fs).length < 2 ^ 31

/-- A field of a message: what is written under its number, and what a field of this number makes of
the value. -/
structure Slot (V : Type) where
  zero : V
  write : Nat → V → List Field
  read : Field → V → Bool × V
  number : ∀ n v, ∀ f ∈ write n v, f.number = n
  valid : ∀ n v, 0 < n → n < 2 ^ 29 → Short (write n v) → ∀ f ∈ write n v, f.Valid
  feed_write : ∀ n v, Short (write n v) → feed read zero (write n v) = (true, v)

/-- The fields of a message, from a number on. -/
structure Layout (M : Type) where
  zero : M
  size : Nat
  write : Nat → M → List Field
  set : Nat → Field → M → Bool × M
  numbers : ∀ n m, ∀ f ∈ write n m, n ≤ f.number
  valid : ∀ n m, 0 < n → n + size ≤ 2 ^ 29 → Short (write n m) → ∀ f ∈ write n m, f.Valid
  feed_write : ∀ n m, Short (write n m) → feed (set n) zero (write n m) = (true, m)

/-! ## Fields in a row -/

section

variable {V W : Type} {read : Field → V → Bool × V}

theorem feed_append (v : V) (fs gs : List Field) :
    feed read v (fs ++ gs) =
      if (feed read v fs).1 then feed read (feed read v fs).2 gs else feed read v fs := by
  induction fs generalizing v with
  | nil => rfl
  | cons f fs ih =>
    rw [List.cons_append, feed, feed]
    rcases read f v with ⟨_ | _, w⟩
    · rfl
    · exact ih w

/-- Where each field does to a part of the value what another reader does to that part alone. -/
theorem feed_congr {other : Field → W → Bool × W} (put : W → V) {fs : List Field}
    (same : ∀ f ∈ fs, ∀ w, read f (put w) = ((other f w).1, put (other f w).2)) (w : W) :
    feed read (put w) fs = ((feed other w fs).1, put (feed other w fs).2) := by
  induction fs generalizing w with
  | nil => rfl
  | cons f fs ih =>
    have here := same f List.mem_cons_self w
    have rest := ih fun g mem => same g (List.mem_cons_of_mem _ mem)
    rw [feed, feed, here]
    rcases other f w with ⟨_ | _, w'⟩
    · rfl
    · exact rest w'

theorem Short.left {fs gs : List Field} (short : Short (fs ++ gs)) : Short fs := by
  simp only [Short, fieldBytes, List.flatMap_append, List.length_append] at short ⊢
  omega

theorem Short.right {fs gs : List Field} (short : Short (fs ++ gs)) : Short gs := by
  simp only [Short, fieldBytes, List.flatMap_append, List.length_append] at short ⊢
  omega

theorem Short.payload {fs : List Field} {n : Nat} {payload : List UInt8} (short : Short fs)
    (mem : .delimited n payload ∈ fs) : payload.length < 2 ^ 31 :=
  Nat.lt_of_le_of_lt (Nat.le_trans (Field.payload_length_le n payload) (length_bytes_le mem)) short

end

/-! ## Messages -/

namespace Layout

variable {M N V : Type}

/-- What comes is taken over into the message. -/
def merge (l : Layout M) (m : M) (input : List UInt8) : Bool × M :=
  let fields := Wire.read input
  let fed := feed (l.set 1) m fields.1
  (fed.1 && fields.2, fed.2)

def parse (l : Layout M) (input : List UInt8) : Bool × M := l.merge l.zero input

def serialize (l : Layout M) (m : M) : List UInt8 := fieldBytes (l.write 1 m)

/-- A message of few fields, as all are, is read as it was written. -/
theorem parse_serialize {l : Layout M} (few : l.size < 1000) {m : M}
    (fits : (l.serialize m).length < 2 ^ 31) : l.parse (l.serialize m) = (true, m) := by
  have valid := l.valid 1 m Nat.one_pos (by omega) fits
  rw [parse, merge, serialize, read_fieldBytes _ valid]
  dsimp only
  rw [l.feed_write 1 m fits]
  rfl

def nil : Layout Unit where
  zero := ()
  size := 0
  write _ _ := []
  set _ _ m := (true, m)
  numbers _ _ _ mem := by cases mem
  valid _ _ _ _ _ _ mem := by cases mem
  feed_write _ _ _ := rfl

/-- A field goes to the slot of its number. -/
def setCons (s : Slot V) (l : Layout M) (n : Nat) (f : Field) (m : V × M) : Bool × V × M :=
  if f.number = n then ((s.read f m.1).1, (s.read f m.1).2, m.2)
  else ((l.set (n + 1) f m.2).1, m.1, (l.set (n + 1) f m.2).2)

/-- One field more, with the first number. -/
def cons (s : Slot V) (l : Layout M) : Layout (V × M) where
  zero := (s.zero, l.zero)
  size := l.size + 1
  write n m := s.write n m.1 ++ l.write (n + 1) m.2
  set := setCons s l
  numbers n m f mem := by
    rcases List.mem_append.mp mem with here | later
    · exact Nat.le_of_eq (s.number n m.1 f here).symm
    · exact Nat.le_of_succ_le (l.numbers (n + 1) m.2 f later)
  valid n m pos few short f mem := by
    rcases List.mem_append.mp mem with here | later
    · exact s.valid n m.1 pos (by omega) short.left f here
    · exact l.valid (n + 1) m.2 (by omega) (by omega) short.right f later
  feed_write n m short := by
    have first : feed (setCons s l n) (s.zero, l.zero) (s.write n m.1) = (true, m.1, l.zero) := by
      rw [feed_congr (fun v => (v, l.zero)) (fun f mem v => if_pos (s.number n m.1 f mem)) s.zero,
        s.feed_write n m.1 short.left]
    have rest : feed (setCons s l n) (m.1, l.zero) (l.write (n + 1) m.2) = (true, m) := by
      have later (f : Field) (mem : f ∈ l.write (n + 1) m.2) : f.number ≠ n :=
        Nat.ne_of_gt (l.numbers (n + 1) m.2 f mem)
      rw [feed_congr (fun w => (m.1, w)) (fun f mem w => if_neg (later f mem)) l.zero,
        l.feed_write (n + 1) m.2 short.right]
    rw [feed_append, first]
    exact rest

/-- The same fields for a type that has the same parts. -/
def iso (l : Layout M) (build : M → N) (parts : N → M) (parts_build : ∀ m, parts (build m) = m)
    (build_parts : ∀ x, build (parts x) = x) : Layout N where
  zero := build l.zero
  size := l.size
  write n x := l.write n (parts x)
  set n f x := ((l.set n f (parts x)).1, build (l.set n f (parts x)).2)
  numbers n x := l.numbers n (parts x)
  valid n x := l.valid n (parts x)
  feed_write n x short := by
    rw [feed_congr build (fun f _ m => by rw [parts_build]) l.zero, l.feed_write n (parts x) short,
      build_parts]

end Layout

/-! ## Kinds of fields -/

namespace Slot

variable {M : Type}

/-- A number or a text; the default is not written. -/
def scalar (k : Kind) : Slot k.Value where
  zero := k.zero
  write n v := (k.write n v).toList
  read f v := ((k.read f v).isSome, (k.read f v).getD v)
  number n v f mem := (Kind.write_inv (Option.mem_toList.mp mem)).1
  valid n v pos few short f mem :=
    (Kind.write_inv (Option.mem_toList.mp mem)).2.2 pos few
      (Nat.lt_of_le_of_lt (length_bytes_le mem) short)
  feed_write n v short := by
    rcases written : k.write n v with _ | f
    · rw [Kind.eq_zero_of_write written]
      rfl
    · have back := (Kind.write_inv written).2.1 k.zero
      rw [Option.toList_some, feed, back]
      rfl

/-- A yes or no, which is a number on the wire. -/
def flag : Slot Bool where
  zero := false
  write n b := if b then [.varint n 1] else []
  read
    | .varint _ value, _ => (true, value != 0)
    | _, b => (true, b)
  number n b f mem := by
    cases b with
    | false => cases mem
    | true =>
      obtain rfl := List.mem_singleton.mp mem
      rfl
  valid n b pos few _ f mem := by
    cases b with
    | false => cases mem
    | true =>
      obtain rfl := List.mem_singleton.mp mem
      exact ⟨pos, few, show 1 < 2 ^ 64 by decide⟩
  feed_write n b _ := by cases b <;> rfl

/-- A text that is written even when it is empty. -/
def key : Slot String where
  zero := ""
  write n s := [.delimited n (Kind.utf8 s)]
  read := (scalar .string).read
  number n s f mem := by
    obtain rfl := List.mem_singleton.mp mem
    rfl
  valid n s pos few short f mem := by
    obtain rfl := List.mem_singleton.mp mem
    exact ⟨pos, few, short.payload mem⟩
  feed_write n s _ := by
    have back : Kind.string.read (.delimited n (Kind.utf8 s)) "" = some s := Kind.ofUtf8?_utf8 s
    rw [feed, scalar]
    dsimp only
    rw [back]
    rfl

/-- What is read of messages one after the other, as a list of payloads. -/
theorem feed_payloads {V : Type} {read : Field → V → Bool × V} {put : V → M → V} {n : Nat}
    {ms : List M} {payload : M → List UInt8}
    (each : ∀ m ∈ ms, ∀ v, read (.delimited n (payload m)) v = (true, put v m)) (v : V) :
    feed read v (ms.map fun m => .delimited n (payload m)) = (true, ms.foldl put v) := by
  induction ms generalizing v with
  | nil => rfl
  | cons m ms ih =>
    rw [List.map_cons, feed, each m List.mem_cons_self v]
    exact ih (fun m mem => each m (List.mem_cons_of_mem _ mem)) _

theorem payloads_valid {n : Nat} {ms : List M} {payload : M → List UInt8} (pos : 0 < n)
    (few : n < 2 ^ 29) (short : Short (ms.map fun m => .delimited n (payload m))) :
    ∀ f ∈ ms.map fun m => Field.delimited n (payload m), f.Valid := by
  intro f mem
  obtain ⟨m, there, rfl⟩ := List.mem_map.mp mem
  exact ⟨pos, few, short.payload mem⟩

variable (l : Layout M) (few : l.size < 1000)

/-- A message that is always there. One that comes again is merged. -/
def always : Slot M where
  zero := l.zero
  write n m := [.delimited n (l.serialize m)]
  read
    | .delimited _ payload, m => l.merge m payload
    | _, m => (true, m)
  number n m f mem := by
    obtain rfl := List.mem_singleton.mp mem
    rfl
  valid n m pos small short f mem := by
    obtain rfl := List.mem_singleton.mp mem
    exact ⟨pos, small, short.payload mem⟩
  feed_write n m short := by
    have back := Layout.parse_serialize few (short.payload List.mem_cons_self)
    rw [Layout.parse] at back
    rw [feed]
    dsimp only
    rw [back]
    rfl

/-- A message that may be missing. One that comes again is merged. -/
def message : Slot (Option M) where
  zero := none
  write n m := m.toList.map fun m => .delimited n (l.serialize m)
  read
    | .delimited _ payload, m => ((l.merge (m.getD l.zero) payload).1,
        some (l.merge (m.getD l.zero) payload).2)
    | _, m => (true, m)
  number n m f mem := by
    obtain ⟨m, -, rfl⟩ := List.mem_map.mp mem
    rfl
  valid n m pos small short := payloads_valid pos small short
  feed_write n m short := by
    rcases m with _ | m
    · rfl
    · have back := Layout.parse_serialize few (short.payload List.mem_cons_self)
      rw [Layout.parse] at back
      rw [Option.toList_some, List.map_singleton, feed]
      dsimp only [Option.getD_none]
      rw [back]
      rfl

/-- Messages in a list; each that comes is a new one. -/
def repeated : Slot (List M) where
  zero := []
  write n ms := ms.map fun m => .delimited n (l.serialize m)
  read
    | .delimited _ payload, ms => ((l.parse payload).1, ms ++ [(l.parse payload).2])
    | _, ms => (true, ms)
  number n ms f mem := by
    obtain ⟨m, -, rfl⟩ := List.mem_map.mp mem
    rfl
  valid n ms pos small short := payloads_valid pos small short
  feed_write n ms short := by
    have each (m : M) (mem : m ∈ ms) (ms' : List M) :
        ((l.parse (l.serialize m)).1, ms' ++ [(l.parse (l.serialize m)).2]) =
          (true, ms' ++ [m]) := by
      rw [Layout.parse_serialize few (short.payload (List.mem_map_of_mem mem))]
    rw [feed_payloads each, List.foldl_append_eq_append, List.nil_append, ← List.flatMap_def,
      List.flatMap_singleton']

end Slot

/-! ## Maps -/

/-- An entry of a map, with both of its fields. -/
def Layout.entry {M : Type} (l : Layout M) (few : l.size < 1000) : Layout (String × M × Unit) :=
  .cons .key (.cons (.always l few) .nil)

theorem Layout.entry_few {M : Type} (l : Layout M) (few : l.size < 1000) :
    (l.entry few).size < 1000 := by
  have two : (l.entry few).size = 2 := rfl
  omega

/-- The value of a key changes, or the key is new. -/
def put {M : Type} (map : AList fun _ : String => M) (key : String) (m : M) :
    AList fun _ : String => M :=
  if known : key ∈ map then map.replace key m
  else
    ⟨map.entries ++ [⟨key, m⟩], by
      have distinct : map.keys.Nodup := map.nodupKeys
      rw [List.NodupKeys, List.keys, List.map_append]
      refine List.nodup_append.mpr ⟨distinct, List.nodup_singleton _, ?_⟩
      intro k there k' last same
      obtain rfl := List.mem_singleton.mp last
      exact known (same ▸ AList.mem_keys.mpr there)⟩

theorem entries_put {M : Type} {map : AList fun _ : String => M} {key : String} (fresh : key ∉ map)
    (m : M) : (put map key m).entries = map.entries ++ [⟨key, m⟩] := by
  rw [put, dif_neg fresh]

/-- Entries with keys of their own go last. -/
theorem foldl_put {M : Type} {entries : List (Sigma fun _ : String => M)}
    (map : AList fun _ : String => M) (distinct : (map.entries ++ entries).NodupKeys) :
    (entries.foldl (fun map e => put map e.1 e.2) map).entries = map.entries ++ entries := by
  induction entries generalizing map with
  | nil => exact (List.append_nil _).symm
  | cons e entries ih =>
    have fresh : e.1 ∉ map := by
      intro known
      rw [List.NodupKeys, List.keys, List.map_append] at distinct
      have apart := (List.nodup_append.mp distinct).2.2
      exact apart e.1 (AList.mem_keys.mp known) e.1 (by simp) rfl
    have next := entries_put fresh e.2
    rw [List.foldl_cons, ih _ (by rw [next]; simpa using distinct), next]
    simp

/-- A map from texts to messages. An entry that makes no sense leaves it as it was. -/
def Slot.map {M : Type} (l : Layout M) (few : l.size < 1000) :
    Slot (AList fun _ : String => M) where
  zero := ∅
  write n map := map.entries.map fun e => .delimited n ((l.entry few).serialize (e.1, e.2, ()))
  read
    | .delimited _ payload, map =>
      match (l.entry few).parse payload with
      | (false, _) => (false, map)
      | (true, key, m, _) => (true, put map key m)
    | _, map => (true, map)
  number n map f mem := by
    obtain ⟨e, -, rfl⟩ := List.mem_map.mp mem
    rfl
  valid n map pos small short := Slot.payloads_valid pos small short
  feed_write n map short := by
    have each (e : Sigma fun _ : String => M) (mem : e ∈ map.entries)
        (map' : AList fun _ : String => M) :
        (match (l.entry few).parse ((l.entry few).serialize (e.1, e.2, ())) with
          | (false, _) => (false, map')
          | (true, key, m, _) => (true, put map' key m)) = (true, put map' e.1 e.2) := by
      rw [Layout.parse_serialize (l.entry_few few) (short.payload (List.mem_map_of_mem mem))]
    rw [Slot.feed_payloads each]
    exact congrArg (true, ·) (AList.ext (by
      rw [foldl_put ∅ (by simpa using map.nodupKeys)]
      rfl))

end MicroserviceFramework.Library.Wire
