import MicroserviceFramework.Config.ProtoFile

/-!
# The text of a proto file

`DebugString` and the grammar it is parsed by, over the tokens of the text; white space between
them does not matter. `Protobuf` is what is relied on of protobuf's parser, and
`Protobuf.descent` is a parser that does it: the recursive descent over the statements of a body.
-/

namespace MicroserviceFramework.Config.Proto

inductive Token where
  | ident (s : String)
  | int (n : Nat)
  | str (s : String)
  | dot
  | equals
  | semicolon
  | minus
  | lbrace
  | rbrace
  deriving DecidableEq, Repr

/-! ## Writing -/

/-- `FileDescriptor::SyntaxName`. -/
def Syntax.name : Syntax → String
  | proto2 => "proto2"
  | proto3 => "proto3"

def Label.text : Label → List Token
  | singular => []
  | optional => [.ident "optional"]
  | required => [.ident "required"]
  | repeated => [.ident "repeated"]

def Scalar.text : Scalar → String
  | double => "double"
  | float => "float"
  | int32 => "int32"
  | int64 => "int64"
  | uint32 => "uint32"
  | uint64 => "uint64"
  | sint32 => "sint32"
  | sint64 => "sint64"
  | fixed32 => "fixed32"
  | fixed64 => "fixed64"
  | sfixed32 => "sfixed32"
  | sfixed64 => "sfixed64"
  | bool => "bool"
  | string => "string"
  | bytes => "bytes"

/-- A full name, with a dot before every part. -/
def fullName (path : List String) : List Token := path.flatMap fun s => [.dot, .ident s]

def FieldType.text : FieldType → List Token
  | scalar s => [.ident s.text]
  | named r => fullName r

def FieldProto.debugString (f : FieldProto) : List Token :=
  f.label.text ++ f.type.text ++ [.ident f.name, .equals, .int f.number, .semicolon]

def intText : Int → List Token
  | .ofNat n => [.int n]
  | .negSucc n => [.minus, .int (n + 1)]

def valueText (v : String × Int) : List Token :=
  .ident v.1 :: .equals :: (intText v.2 ++ [.semicolon])

/-- `EnumDescriptor::DebugString`. -/
def EnumProto.debugString (e : EnumProto) : List Token :=
  .ident "enum" :: .ident e.name :: .lbrace :: (e.values.flatMap valueText ++ [.rbrace])

mutual

/-- `Descriptor::DebugString`: the messages and the enums declared inside, then the fields. -/
def MessageProto.debugString : MessageProto → List Token
  | ⟨name, nested, enums, fields⟩ =>
    .ident "message" :: .ident name :: .lbrace ::
      (debugStrings nested ++ enums.flatMap EnumProto.debugString ++
        fields.flatMap FieldProto.debugString ++ [.rbrace])

def debugStrings : List MessageProto → List Token
  | [] => []
  | m :: ms => m.debugString ++ debugStrings ms

end

def TypeDef.debugString : TypeDef → List Token
  | message m => m.debugString
  | enum e => e.debugString

def TypeDef.message? : TypeDef → Option MessageProto
  | message m => some m
  | enum _ => none

def TypeDef.enum? : TypeDef → Option EnumProto
  | message _ => none
  | enum e => some e

def syntaxLine (dialect : Syntax) : List Token :=
  [.ident "syntax", .equals, .str dialect.name, .semicolon]

def packageLine (package : List String) : List Token :=
  .ident "package" :: ((fullName package).tail ++ [.semicolon])

/-! ## Reading -/

def Syntax.ofName (s : String) : Option Syntax := [proto2, proto3].find? (·.name == s)

def Scalar.ofText (s : String) : Option Scalar :=
  [double, float, int32, int64, uint32, uint64, sint32, sint64, fixed32, fixed64, sfixed32,
    sfixed64, bool, string, bytes].find? (·.text == s)

def Label.read : List Token → Label × List Token
  | .ident "optional" :: ts => (.optional, ts)
  | .ident "required" :: ts => (.required, ts)
  | .ident "repeated" :: ts => (.repeated, ts)
  | ts => (.singular, ts)

def readName : List Token → List String × List Token
  | .dot :: .ident s :: ts => (s :: (readName ts).1, (readName ts).2)
  | ts => ([], ts)

def FieldType.read : List Token → Option (FieldType × List Token)
  | .ident s :: ts => (Scalar.ofText s).map fun scalar => (.scalar scalar, ts)
  | ts => if named : (readName ts).1 ≠ [] then some (.named ⟨_, named⟩, (readName ts).2) else none

def FieldProto.read (ts : List Token) : Option (FieldProto × List Token) :=
  match FieldType.read (Label.read ts).2 with
  | some (type, .ident name :: .equals :: .int number :: .semicolon :: rest) =>
    some (⟨(Label.read ts).1, type, name, number⟩, rest)
  | _ => none

def readValues : List Token → Option (List (String × Int) × List Token)
  | .rbrace :: ts => some ([], ts)
  | .ident name :: .equals :: .int n :: .semicolon :: ts =>
    (readValues ts).map fun (values, rest) => ((name, (n : Int)) :: values, rest)
  | .ident name :: .equals :: .minus :: .int n :: .semicolon :: ts =>
    (readValues ts).map fun (values, rest) => ((name, -(n : Int)) :: values, rest)
  | _ => none

def MessageProto.extend (m : MessageProto) (nested : List MessageProto) (enums : List EnumProto)
    (fields : List FieldProto) : MessageProto :=
  ⟨m.name, m.nested ++ nested, m.enums ++ enums, m.fields ++ fields⟩

theorem MessageProto.extend_nil (m : MessageProto) : m.extend [] [] [] = m := by
  cases m
  simp [extend]

/-- The statements up to the brace that closes the body, or up to the end of the file, added to a
message; `fuel` bounds the statements that are read. -/
def readBody : Nat → List Token → MessageProto → Option (MessageProto × List Token)
  | _, [], m => some (m, [])
  | _, .rbrace :: ts, m => some (m, .rbrace :: ts)
  | 0, _, _ => none
  | fuel + 1, .ident keyword :: .ident name :: .lbrace :: ts, m =>
    if keyword = "message" then
      match readBody fuel ts { name } with
      | some (inner, .rbrace :: ts) => readBody fuel ts (m.extend [inner] [] [])
      | _ => none
    else if keyword = "enum" then
      match readValues ts with
      | some (values, ts) => readBody fuel ts (m.extend [] [{ name, values }] [])
      | none => none
    else none
  | fuel + 1, ts, m =>
    match FieldProto.read ts with
    | some (f, ts) => readBody fuel ts (m.extend [] [] [f])
    | none => none

/-- Without a `syntax` line a file is `proto2`. -/
def readSyntax : List Token → Option (Syntax × List Token)
  | .ident "syntax" :: .equals :: .str s :: .semicolon :: ts =>
    (Syntax.ofName s).map fun dialect => (dialect, ts)
  | ts => some (.proto2, ts)

def readPackage : List Token → Option (List String × List Token)
  | .ident "package" :: .ident s :: ts =>
    match readName ts with
    | (path, .semicolon :: ts) => some (s :: path, ts)
    | _ => none
  | .ident "package" :: _ => none
  | ts => some ([], ts)

def readFile (text : List Token) : Option FileProto := do
  let (dialect, ts) ← readSyntax text
  let (package, ts) ← readPackage ts
  match readBody ts.length ts { name := "" } with
  | some (⟨_, messages, enums, []⟩, []) => some { dialect, package, messages, enums }
  | _ => none

example : readFile [.ident "message", .ident "M", .lbrace, .ident "optional", .ident "int32",
    .ident "port", .equals, .int 1, .semicolon, .rbrace] =
    some ⟨.proto2, [], [⟨"M", [], [], [⟨.optional, .scalar .int32, "port", 1⟩]⟩], []⟩ := rfl

/-! ## Reading what was written -/

section

variable {ts : List Token} {n : String}

theorem Syntax.ofName_name (dialect : Syntax) : Syntax.ofName dialect.name = some dialect := by
  cases dialect <;> rfl

theorem Scalar.ofText_text (s : Scalar) : Scalar.ofText s.text = some s := by
  cases s <;> rfl

theorem readName_fullName (path : List String) {ts : List Token}
    (ends : ∀ s rest, ts ≠ .dot :: .ident s :: rest) :
    readName (fullName path ++ ts) = (path, ts) := by
  induction path with
  | nil =>
    rw [fullName, List.flatMap_nil, List.nil_append]
    unfold readName
    split
    · exact absurd rfl (ends _ _)
    · rfl
  | cons s path ih =>
    rw [fullName] at ih ⊢
    simp [readName, ih]

theorem FieldType.read_text (type : FieldType) :
    FieldType.read (type.text ++ .ident n :: ts) = some (type, .ident n :: ts) := by
  cases type with
  | scalar s => simp [FieldType.text, FieldType.read, Scalar.ofText_text]
  | named r =>
    obtain ⟨path, named⟩ := r
    have name : readName (fullName path ++ .ident n :: ts) = (path, .ident n :: ts) :=
      readName_fullName path (by simp)
    cases path with
    | nil => exact absurd rfl named
    | cons s path =>
      rw [FieldType.text]
      rw [fullName, List.flatMap_cons] at name ⊢
      simp only [List.cons_append, List.nil_append] at name ⊢
      simp [FieldType.read, name]

/-- A type is not written like a label, so a field without a label is read as one. -/
theorem Label.read_text (label : Label) (type : FieldType) :
    Label.read (label.text ++ (type.text ++ ts)) = (label, type.text ++ ts) := by
  cases label with
  | singular =>
    cases type with
    | scalar s => cases s <;> rfl
    | named r =>
      obtain ⟨path, named⟩ := r
      cases path with
      | nil => exact absurd rfl named
      | cons s path => rfl
  | optional => rfl
  | required => rfl
  | repeated => rfl

theorem FieldProto.read_debugString (f : FieldProto) :
    FieldProto.read (f.debugString ++ ts) = some (f, ts) := by
  simp only [FieldProto.debugString, List.append_assoc, FieldProto.read, Label.read_text]
  simp [FieldType.read_text]

theorem readValues_valueText (values : List (String × Int)) (ts : List Token) :
    readValues (values.flatMap valueText ++ .rbrace :: ts) = some (values, ts) := by
  induction values with
  | nil => rfl
  | cons v values ih =>
    obtain ⟨name, number⟩ := v
    cases number with
    | ofNat k => simp [valueText, intText, readValues, ih]
    | negSucc k =>
      have read : -((k + 1 : Nat) : Int) = .negSucc k := rfl
      simp only [List.flatMap_cons, valueText, intText, List.cons_append, List.nil_append,
        readValues, ih, Option.map_some, read]

end

/-! ## Bodies -/

@[simp] theorem readBody_nil (fuel : Nat) (m : MessageProto) :
    readBody fuel [] m = some (m, []) := by
  cases fuel <;> rfl

@[simp] theorem readBody_rbrace (fuel : Nat) (ts : List Token) (m : MessageProto) :
    readBody fuel (.rbrace :: ts) m = some (m, .rbrace :: ts) := by
  cases fuel <;> rfl

/-- No field is written like the start of a message or an enum, nor like the end of a body. -/
theorem readBody_field (fuel : Nat) (f : FieldProto) (rest : List Token) (m : MessageProto) :
    readBody (fuel + 1) (f.debugString ++ rest) m =
      match FieldProto.read (f.debugString ++ rest) with
      | some (f, ts) => readBody fuel ts (m.extend [] [] [f])
      | none => none := by
  obtain ⟨label, type, name, number⟩ := f
  cases type with
  | scalar s => cases label <;> rfl
  | named r =>
    obtain ⟨path, named⟩ := r
    cases path with
    | nil => exact absurd rfl named
    | cons s path => cases label <;> rfl

/-- Reading `text` adds these declarations, and takes no more fuel than the text has tokens. -/
def Reads (text : List Token) (nested : List MessageProto) (enums : List EnumProto)
    (fields : List FieldProto) : Prop :=
  ∀ fuel rest m, text.length ≤ fuel → ∃ left, fuel ≤ left + text.length ∧
    readBody fuel (text ++ rest) m = readBody left rest (m.extend nested enums fields)

namespace Reads

variable {text text' : List Token} {nested nested' : List MessageProto}
  {enums enums' : List EnumProto} {fields fields' : List FieldProto}

theorem nil : Reads [] [] [] [] := by
  intro fuel rest m _
  exact ⟨fuel, Nat.le_refl _, by rw [m.extend_nil, List.nil_append]⟩

theorem append (reads : Reads text nested enums fields)
    (reads' : Reads text' nested' enums' fields') :
    Reads (text ++ text') (nested ++ nested') (enums ++ enums') (fields ++ fields') := by
  intro fuel rest m enough
  rw [List.length_append] at enough ⊢
  obtain ⟨left, used, first⟩ := reads fuel (text' ++ rest) m (by omega)
  obtain ⟨left', used', second⟩ := reads' left rest (m.extend nested enums fields) (by omega)
  refine ⟨left', by omega, ?_⟩
  rw [List.append_assoc, first, second]
  simp [MessageProto.extend]

theorem field (f : FieldProto) : Reads f.debugString [] [] [f] := by
  intro fuel rest m enough
  cases fuel with
  | zero => simp [FieldProto.debugString] at enough
  | succ fuel =>
    have some : 0 < f.debugString.length := by
      rw [FieldProto.debugString, List.length_append]
      simp
    refine ⟨fuel, by omega, ?_⟩
    rw [readBody_field, FieldProto.read_debugString]

theorem enum (e : EnumProto) : Reads e.debugString [] [e] [] := by
  intro fuel rest m enough
  cases fuel with
  | zero => simp [EnumProto.debugString] at enough
  | succ fuel =>
    refine ⟨fuel, by simp [EnumProto.debugString], ?_⟩
    have values := readValues_valueText e.values rest
    simp [EnumProto.debugString, readBody, values]

/-- The inner body ends at its brace, and the reading goes on behind it. -/
theorem message (name : String) (reads : Reads text nested enums fields) :
    Reads (.ident "message" :: .ident name :: .lbrace :: (text ++ [.rbrace]))
      [⟨name, nested, enums, fields⟩] [] [] := by
  intro fuel rest m enough
  cases fuel with
  | zero => simp at enough
  | succ fuel =>
    simp only [List.length_cons, List.length_append, List.length_nil] at enough ⊢
    obtain ⟨left, -, read⟩ := reads fuel (.rbrace :: rest) { name } (by omega)
    rw [readBody_rbrace] at read
    refine ⟨fuel, by omega, ?_⟩
    simp [readBody, read, MessageProto.extend]

theorem allEnums (es : List EnumProto) : Reads (es.flatMap EnumProto.debugString) [] es [] := by
  induction es with
  | nil => exact nil
  | cons e es ih => exact (enum e).append ih

theorem allFields (fs : List FieldProto) : Reads (fs.flatMap FieldProto.debugString) [] [] fs := by
  induction fs with
  | nil => exact nil
  | cons f fs ih => exact (field f).append ih

end Reads

mutual

theorem MessageProto.reads : ∀ m : MessageProto, Reads m.debugString [m] [] []
  | ⟨name, nested, enums, fields⟩ => by
    have body := ((allReads nested).append (.allEnums enums)).append (.allFields fields)
    rw [List.append_nil, List.append_nil, List.nil_append, List.append_nil, List.nil_append] at body
    exact body.message name

theorem allReads : ∀ ms : List MessageProto, Reads (debugStrings ms) ms [] []
  | [] => .nil
  | m :: ms => m.reads.append (allReads ms)

end

theorem Reads.types (types : List TypeDef) :
    Reads (types.flatMap TypeDef.debugString) (types.filterMap TypeDef.message?)
      (types.filterMap TypeDef.enum?) [] := by
  induction types with
  | nil => exact nil
  | cons d types ih =>
    cases d with
    | message m => exact m.reads.append ih
    | enum e => exact (enum e).append ih

theorem readSyntax_syntaxLine (dialect : Syntax) (ts : List Token) :
    readSyntax (syntaxLine dialect ++ ts) = some (dialect, ts) := by
  simp [syntaxLine, readSyntax, Syntax.ofName_name]

theorem readPackage_packageLine {package : List String} (named : package ≠ []) (ts : List Token) :
    readPackage (packageLine package ++ ts) = some (package, ts) := by
  obtain ⟨n, path, rfl⟩ := List.exists_cons_of_ne_nil named
  have name : readName (fullName path ++ .semicolon :: ts) = (path, .semicolon :: ts) :=
    readName_fullName path (by simp)
  rw [fullName] at name
  simp [packageLine, fullName, readPackage, name]

theorem readFile_types (dialect : Syntax) {package : List String} (named : package ≠ [])
    (types : List TypeDef) :
    readFile (syntaxLine dialect ++ packageLine package ++ types.flatMap TypeDef.debugString) =
      some ⟨dialect, package, types.filterMap TypeDef.message?,
        types.filterMap TypeDef.enum?⟩ := by
  obtain ⟨left, -, read⟩ := Reads.types types _ [] { name := "" } (Nat.le_refl _)
  rw [readBody_nil, List.append_nil] at read
  simp only [readFile, List.append_assoc, readSyntax_syntaxLine, Option.bind_eq_bind,
    Option.bind_some, readPackage_packageLine named, read]
  rfl

/-! ## Protobuf -/

/-- What is relied on: the text that `DebugString` writes of the types of a file is read back,
and a package has a name. -/
structure Protobuf where
  parse : List Token → Option FileProto
  checks : Checks
  parse_types : ∀ dialect package (types : List TypeDef), package ≠ [] →
    parse (syntaxLine dialect ++ packageLine package ++ types.flatMap TypeDef.debugString) =
      some ⟨dialect, package, types.filterMap TypeDef.message?, types.filterMap TypeDef.enum?⟩
  parse_unnamed : ∀ dialect ts, parse (syntaxLine dialect ++ packageLine [] ++ ts) = none

def Protobuf.descent : Protobuf where
  parse := readFile
  checks := .language
  parse_types dialect _ types named := readFile_types dialect named types
  parse_unnamed dialect ts := by
    rw [readFile, List.append_assoc, readSyntax_syntaxLine]
    rfl

end MicroserviceFramework.Config.Proto
