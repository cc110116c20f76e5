import Mathlib.Algebra.GroupWithZero.Nat
import Mathlib.Algebra.Ring.Int.Defs
import MicroserviceFramework.Library.Unfolding

/-!
# Proto files

The part of the protobuf language that a configuration's type is written in: a file without
imports, messages and enums at top level or inside messages, and fields of scalar, enum and
message types. A type is named by its full name, the way `DebugString` writes it.

What protobuf asks of one message's fields or one enum's values on their own is a parameter; the
rest of what makes a file acceptable concerns the names in it.
-/

namespace MicroserviceFramework.Config.Proto

open Library

inductive Syntax where
  | proto2
  | proto3
  deriving DecidableEq, Repr

inductive Label where
  | singular
  | optional
  | required
  | repeated
  deriving DecidableEq, Repr

inductive Scalar where
  | double
  | float
  | int32
  | int64
  | uint32
  | uint64
  | sint32
  | sint64
  | fixed32
  | fixed64
  | sfixed32
  | sfixed64
  | bool
  | string
  | bytes
  deriving DecidableEq, Repr

/-- The parts of a full name; `.cmsg.CDirConfig` has two. -/
abbrev TypeName := { path : List String // path ≠ [] }

inductive FieldType where
  | scalar (s : Scalar)
  | named (r : TypeName)
  deriving DecidableEq, Repr

def FieldType.name? : FieldType → Option TypeName
  | scalar _ => none
  | named r => some r

structure FieldProto where
  label : Label
  type : FieldType
  name : String
  number : Nat
  deriving DecidableEq, Repr

structure EnumProto where
  name : String
  values : List (String × Int)
  deriving DecidableEq, Repr

structure MessageProto where
  name : String
  nested : List MessageProto := []
  enums : List EnumProto := []
  fields : List FieldProto := []

inductive TypeDef where
  | message (m : MessageProto)
  | enum (e : EnumProto)

structure FileProto where
  dialect : Syntax
  package : List String
  messages : List MessageProto
  enums : List EnumProto

/-! ## Names -/

/-- What messages and enums add to the scope they are declared in. The values of an enum are its
siblings. -/
def symbols (messages : List MessageProto) (enums : List EnumProto) : List String :=
  messages.map (·.name) ++ enums.flatMap fun e => e.name :: e.values.map (·.1)

def lookup (messages : List MessageProto) (enums : List EnumProto) : List String → Option TypeDef
  | [] => none
  | [n] => ((messages.find? (·.name == n)).map .message).or
      ((enums.find? (·.name == n)).map .enum)
  | n :: path => (messages.find? (·.name == n)).bind fun m => lookup m.nested m.enums path

/-- The type of a full name, when these are the declarations of the package. -/
def resolve (package : List String) (messages : List MessageProto) (enums : List EnumProto)
    (path : List String) : Option TypeDef :=
  if package.isPrefixOf path then lookup messages enums (path.drop package.length) else none

def FileProto.find (file : FileProto) (path : List String) : Option TypeDef :=
  resolve file.package file.messages file.enums path

/-- `DescriptorPool::FindMessageTypeByName`. -/
def FileProto.findMessageTypeByName (file : FileProto) (path : List String) :
    Option MessageProto :=
  match file.find path with
  | some (.message m) => some m
  | _ => none

def fieldTypeNames (fields : List FieldProto) : List TypeName := fields.filterMap (·.type.name?)

mutual

/-- Every type named in a message, in the messages nested in it included. -/
def MessageProto.typeNames : MessageProto → List TypeName
  | ⟨_, nested, _, fields⟩ => allTypeNames nested ++ fieldTypeNames fields

def allTypeNames : List MessageProto → List TypeName
  | [] => []
  | m :: ms => m.typeNames ++ allTypeNames ms

end

theorem allTypeNames_eq (ms : List MessageProto) :
    allTypeNames ms = ms.flatMap MessageProto.typeNames := by
  induction ms with
  | nil => rfl
  | cons m ms ih => rw [allTypeNames, ih, List.flatMap_cons]

theorem MessageProto.typeNames_eq (m : MessageProto) :
    m.typeNames = allTypeNames m.nested ++ fieldTypeNames m.fields := by
  cases m
  rfl

/-! ## Acceptable files -/

/-- What protobuf asks of the fields of one message and of the values of one enum. -/
structure Checks where
  fields : Syntax → List FieldProto → Bool
  values : Syntax → List (String × Int) → Bool

/-- Numbers in range and used once, a label exactly where the syntax wants one; an enum has a
value, no number twice, and zero first in `proto3`. -/
def Checks.language : Checks where
  fields dialect fields :=
    decide (fields.map (·.number)).Nodup && fields.all fun f =>
      (1 ≤ f.number && f.number < 2 ^ 29 && !(19000 ≤ f.number && f.number < 20000)) &&
        match dialect with
        | .proto2 => f.label != .singular
        | .proto3 => f.label == .singular || f.label == .repeated
  values dialect values :=
    decide (values.map (·.2)).Nodup && (values.all fun v => -2 ^ 31 ≤ v.2 && v.2 < 2 ^ 31) &&
      match dialect with
      | .proto2 => !values.isEmpty
      | .proto3 => (values.head?.map (·.2)) == some 0

section

variable (checks : Checks) (dialect : Syntax)

def EnumProto.ok (e : EnumProto) : Bool := checks.values dialect e.values

mutual

def MessageProto.ok : MessageProto → Bool
  | ⟨_, nested, enums, fields⟩ =>
    decide (symbols nested enums ++ fields.map (·.name)).Nodup && checks.fields dialect fields &&
      enums.all (·.ok checks dialect) && allOk nested

def allOk : List MessageProto → Bool
  | [] => true
  | m :: ms => m.ok && allOk ms

end

def TypeDef.ok : TypeDef → Bool
  | message m => m.ok checks dialect
  | enum e => e.ok checks dialect

/-- The declarations of one scope are acceptable, except for what they share a scope with. -/
def declsOk (messages : List MessageProto) (enums : List EnumProto) : Bool :=
  enums.all (·.ok checks dialect) && allOk checks dialect messages

theorem allOk_eq (ms : List MessageProto) :
    allOk checks dialect ms = ms.all (·.ok checks dialect) := by
  induction ms with
  | nil => rfl
  | cons m ms ih => rw [allOk, ih, List.all_cons]

end

/-- No name is declared twice in a scope, and every type that is named is defined. -/
def FileProto.ok (checks : Checks) (file : FileProto) : Bool :=
  decide (symbols file.messages file.enums).Nodup &&
    declsOk checks file.dialect file.messages file.enums &&
    (allTypeNames file.messages).all fun r => (file.find r).isSome

/-! ## What a lookup finds -/

def TypeDef.DeclaredIn (messages : List MessageProto) (enums : List EnumProto) : TypeDef → Prop
  | message m => m ∈ messages
  | enum e => e ∈ enums

section

variable {messages : List MessageProto} {enums : List EnumProto} {path : List String}
  {d : TypeDef} {m : MessageProto} {checks : Checks} {dialect : Syntax}

/-- What is found is declared in a scope that is reached from the outermost one by going into
messages, so it keeps what the messages' own scopes keep. -/
theorem lookup_declared {Scope : List MessageProto → List EnumProto → Prop}
    (inner : ∀ ms es, Scope ms es → ∀ m ∈ ms, Scope m.nested m.enums)
    (outer : Scope messages enums) (found : lookup messages enums path = some d) :
    ∃ ms es, Scope ms es ∧ d.DeclaredIn ms es := by
  induction path generalizing messages enums with
  | nil => cases found
  | cons n path ih =>
    cases path with
    | nil =>
      refine ⟨messages, enums, outer, ?_⟩
      rw [lookup, Option.or_eq_some_iff] at found
      obtain message | ⟨-, enum⟩ := found
      · obtain ⟨m, here, rfl⟩ := Option.map_eq_some_iff.mp message
        exact List.mem_of_find?_eq_some here
      · obtain ⟨e, here, rfl⟩ := Option.map_eq_some_iff.mp enum
        exact List.mem_of_find?_eq_some here
    | cons n' path =>
      obtain ⟨m, here, found⟩ := Option.bind_eq_some_iff.mp found
      exact ih (inner _ _ outer m (List.mem_of_find?_eq_some here)) found

theorem exists_lookup_of_resolve {package : List String}
    (found : resolve package messages enums path = some d) :
    ∃ path, lookup messages enums path = some d := by
  unfold resolve at found
  split at found
  · exact ⟨_, found⟩
  · cases found

theorem typeNames_subset (mem : m ∈ messages) : m.typeNames ⊆ allTypeNames messages := by
  intro r named
  rw [allTypeNames_eq, List.mem_flatMap]
  exact ⟨m, mem, named⟩

theorem typeNames_subset_of_lookup (found : lookup messages enums path = some (.message m)) :
    m.typeNames ⊆ allTypeNames messages := by
  have inner (ms : List MessageProto) (_ : List EnumProto)
      (sub : allTypeNames ms ⊆ allTypeNames messages) (m : MessageProto) (mem : m ∈ ms) :
      allTypeNames m.nested ⊆ allTypeNames messages := by
    intro r named
    apply sub
    apply typeNames_subset mem
    rw [m.typeNames_eq]
    exact List.mem_append_left _ named
  obtain ⟨ms, es, sub, mem⟩ := lookup_declared inner (List.Subset.refl _) found
  exact List.Subset.trans (typeNames_subset mem) sub

theorem MessageProto.ok_iff :
    m.ok checks dialect = true ↔ (symbols m.nested m.enums ++ m.fields.map (·.name)).Nodup ∧
      checks.fields dialect m.fields = true ∧ declsOk checks dialect m.nested m.enums = true := by
  cases m
  simp [MessageProto.ok, declsOk, and_assoc]

theorem TypeDef.ok_of_declaredIn (ok : declsOk checks dialect messages enums = true)
    (declared : d.DeclaredIn messages enums) : d.ok checks dialect = true := by
  rw [declsOk, Bool.and_eq_true, allOk_eq, List.all_eq_true, List.all_eq_true] at ok
  cases d with
  | message m => exact ok.2 m declared
  | enum e => exact ok.1 e declared

theorem TypeDef.ok_of_lookup (ok : declsOk checks dialect messages enums = true)
    (found : lookup messages enums path = some d) : d.ok checks dialect = true := by
  have inner (ms : List MessageProto) (es : List EnumProto)
      (ok : declsOk checks dialect ms es = true) (m : MessageProto) (mem : m ∈ ms) :
      declsOk checks dialect m.nested m.enums = true := by
    have message : m.ok checks dialect = true := ok_of_declaredIn (d := .message m) ok mem
    exact (MessageProto.ok_iff.mp message).2.2
  obtain ⟨ms, es, ok, declared⟩ := lookup_declared inner ok found
  exact ok_of_declaredIn ok declared

end

/-! ## What a message type is made of -/

/-- What matters of a type to read and write its values. -/
inductive Shape where
  | message (fields : List FieldProto)
  | enum (values : List (String × Int))
  deriving DecidableEq

def Shape.typeNames : Shape → List TypeName
  | message fields => fieldTypeNames fields
  | enum _ => []

def TypeDef.shape : TypeDef → Shape
  | message m => .message m.fields
  | enum e => .enum e.values

def FileProto.shape (file : FileProto) (r : TypeName) : Option Shape :=
  (file.find r).map TypeDef.shape

/-- The fields of a message type of the file, with the types they have, to every depth. -/
def FileProto.layout (file : FileProto) (m : MessageProto) (depth : Nat) :
    Unfolding.Tree Shape :=
  .node (some (.message m.fields))
    ((fieldTypeNames m.fields).map (Unfolding.unfold Shape.typeNames file.shape depth))

end MicroserviceFramework.Config.Proto
