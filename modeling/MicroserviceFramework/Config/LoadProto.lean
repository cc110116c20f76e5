import MicroserviceFramework.Config.ProtoText

/-!
# Loading a proto file

`CConfigClient::loadProto` makes a message of a type that a proto file declares, and the text that
is stored with the values of such a message: the header of the file, the enums its fields have,
each name once, and the message. `ConfigEdit::loadConfig` loads a stored text the same way and
parses the stored values.

A text is what the tokenizer makes of it, and a class name is the parts between its dots.
-/

namespace MicroserviceFramework.Config.Proto

open Library

/-- The enum type of a field, if its type is `TYPE_ENUM`. -/
def FileProto.enumType (file : FileProto) (field : FieldProto) : Option EnumProto :=
  match field.type with
  | .scalar _ => none
  | .named r =>
    match file.find r with
    | some (.enum e) => some e
    | _ => none

/-- One round of the loop over the fields; the names in `enumDesc` have been written. -/
def FileProto.addEnum (file : FileProto) :
    List (String × EnumProto) × List Token → FieldProto → List (String × EnumProto) × List Token
  | (enumDesc, outProtoCode), field =>
    match file.enumType field with
    | none => (enumDesc, outProtoCode)
    | some e =>
      if enumDesc.any (·.1 == e.name) then (enumDesc, outProtoCode)
      else (enumDesc ++ [(e.name, e)], outProtoCode ++ e.debugString)

/-- The message type that is asked for, the first one if no class name is given. -/
def FileProto.messageDesc (fileDesc : FileProto) (className : List String) :
    Option MessageProto :=
  if className.isEmpty then fileDesc.messages.head?
  else
    let classNamePack :=
      if className.length = 1 then
        if fileDesc.package.isEmpty then className else fileDesc.package ++ className
      else className
    fileDesc.findMessageTypeByName classNamePack

/-- The message that was made, by its type and the file that declares it, and `outProtoCode`. -/
structure Loaded where
  file : FileProto
  message : MessageProto
  outProtoCode : List Token

def Loaded.layout (loaded : Loaded) : Nat → Unfolding.Tree Shape :=
  loaded.file.layout loaded.message

namespace Protobuf

variable (pb : Protobuf)

/-- `Importer::Import` of a file with this text. -/
def importFile (text : List Token) : Option FileProto :=
  (pb.parse text).filter (·.ok pb.checks)

def loadProto (text : List Token) (className : List String) : Option Loaded := do
  let fileDesc ← pb.importFile text
  let messageDesc ← fileDesc.messageDesc className
  let outProtoCode := syntaxLine fileDesc.dialect ++ packageLine fileDesc.package
  let (_, outProtoCode) := messageDesc.fields.foldl fileDesc.addEnum ([], outProtoCode)
  some ⟨fileDesc, messageDesc, outProtoCode ++ messageDesc.debugString⟩

/-- `ConfigEdit::loadConfig` once the configuration is there. `parseFromString` knows of a message
what its type is made of. -/
def loadConfig {α : Type} (parseFromString : (Nat → Unfolding.Tree Shape) → List UInt8 → Option α)
    (proto : List Token) (privatePb : List UInt8) : Option α :=
  if proto.isEmpty then none
  else do
    let loaded ← pb.loadProto proto []
    parseFromString loaded.layout privatePb

end Protobuf

/-! ## What is written -/

theorem eraseDupsBy_subset {α : Type*} (r : α → α → Bool) (xs : List α) :
    xs.eraseDupsBy r ⊆ xs := by
  cases xs with
  | nil => simp
  | cons x xs =>
    rw [List.eraseDupsBy_cons]
    exact List.cons_subset_cons x
      (List.Subset.trans (eraseDupsBy_subset r _) List.filter_sublist.subset)
termination_by xs.length
decreasing_by
  have le := List.length_filter_le (fun y => decide (r y x = false)) xs
  simp only [List.length_cons]
  omega

namespace FileProto

/-- The enum types of the fields of a message, the first of every short name. -/
def copiedEnums (file : FileProto) (m : MessageProto) : List EnumProto :=
  (m.fields.filterMap file.enumType).eraseDupsBy fun e e' => e.name == e'.name

def savedTypes (file : FileProto) (m : MessageProto) : List TypeDef :=
  (file.copiedEnums m).map .enum ++ [.message m]

def savedText (file : FileProto) (m : MessageProto) : List Token :=
  syntaxLine file.dialect ++ packageLine file.package ++
    (file.savedTypes m).flatMap TypeDef.debugString

/-- The file that the saved text describes. -/
def saved (file : FileProto) (m : MessageProto) : FileProto :=
  { file with messages := [m], enums := file.copiedEnums m }

variable {file : FileProto} {m : MessageProto}

theorem foldl_addEnum (fields : List FieldProto) (enumDesc : List (String × EnumProto))
    (out : List Token) :
    (fields.foldl file.addEnum (enumDesc, out)).2 =
      out ++ (((fields.filterMap file.enumType).filter fun e =>
        !enumDesc.any (·.1 == e.name)).eraseDupsBy fun e e' => e.name == e'.name).flatMap
          EnumProto.debugString := by
  induction fields generalizing enumDesc out with
  | nil => simp
  | cons field fields ih =>
    rw [List.foldl_cons]
    cases type : file.enumType field with
    | none =>
      have skip : file.addEnum (enumDesc, out) field = (enumDesc, out) := by simp [addEnum, type]
      rw [skip, List.filterMap_cons_none type]
      exact ih enumDesc out
    | some e =>
      rw [List.filterMap_cons_some type]
      cases seen : enumDesc.any (·.1 == e.name) with
      | true =>
        have skip : file.addEnum (enumDesc, out) field = (enumDesc, out) := by
          simp [addEnum, type, seen]
        rw [skip, List.filter_cons_of_neg (by simp [seen])]
        exact ih enumDesc out
      | false =>
        have write : file.addEnum (enumDesc, out) field =
            (enumDesc ++ [(e.name, e)], out ++ e.debugString) := by
          simp [addEnum, type, seen]
        rw [write, ih, List.filter_cons_of_pos (by simp [seen]), List.eraseDupsBy_cons,
          List.filter_filter, List.flatMap_cons, List.append_assoc]
        congr 5
        funext e'
        by_cases same : e.name = e'.name
        · simp [same]
        · simp [same, Ne.symm same]

/-- The loop writes the enums of the text, and the message comes after it. -/
theorem foldl_addEnum_debugString :
    (m.fields.foldl file.addEnum ([], syntaxLine file.dialect ++ packageLine file.package)).2 ++
      m.debugString = file.savedText m := by
  have all : (m.fields.filterMap file.enumType).filter
      (fun e => !([] : List (String × EnumProto)).any (·.1 == e.name)) =
        m.fields.filterMap file.enumType :=
    List.filter_eq_self.mpr fun _ _ => rfl
  rw [foldl_addEnum, all, savedText, savedTypes, List.flatMap_append, List.flatMap_map,
    List.append_assoc, List.flatMap_singleton]
  rfl

theorem exists_lookup_of_enumType {field : FieldProto} {e : EnumProto}
    (type : file.enumType field = some e) :
    ∃ path, lookup file.messages file.enums path = some (.enum e) := by
  unfold enumType at type
  split at type
  · cases type
  · split at type
    · rename_i found
      obtain rfl := Option.some.inj type
      exact exists_lookup_of_resolve found
    · cases type

theorem declsOk_of_ok {checks : Checks} (ok : file.ok checks = true) :
    declsOk checks file.dialect file.messages file.enums = true := by
  simp only [FileProto.ok, Bool.and_eq_true] at ok
  exact ok.1.2

theorem find_of_ok {checks : Checks} (ok : file.ok checks = true) {r : TypeName}
    (named : r ∈ allTypeNames file.messages) : (file.find r).isSome := by
  rw [FileProto.ok, Bool.and_eq_true, List.all_eq_true] at ok
  exact ok.2 r named

theorem ok_of_mem_copiedEnums {checks : Checks} (ok : file.ok checks = true) {e : EnumProto}
    (mem : e ∈ file.copiedEnums m) : e.ok checks file.dialect = true := by
  obtain ⟨field, -, type⟩ := List.mem_filterMap.mp (eraseDupsBy_subset _ _ mem)
  obtain ⟨path, found⟩ := exists_lookup_of_enumType type
  exact TypeDef.ok_of_lookup (declsOk_of_ok ok) found

end FileProto

/-! ## What is loaded -/

/-- The message type is one of an acceptable file, and the text is the one saved for it. -/
structure Loaded.OfFile (checks : Checks) (loaded : Loaded) : Prop where
  ok : loaded.file.ok checks = true
  declared : ∃ path,
    lookup loaded.file.messages loaded.file.enums path = some (.message loaded.message)
  text : loaded.outProtoCode = loaded.file.savedText loaded.message

namespace FileProto

variable {file : FileProto} {m : MessageProto}

theorem exists_lookup_of_head (first : file.messages.head? = some m) :
    ∃ path, lookup file.messages file.enums path = some (.message m) := by
  obtain ⟨ms, eq⟩ := List.head?_eq_some_iff.mp first
  exact ⟨[m.name], by simp [lookup, eq]⟩

theorem exists_lookup_of_findMessageTypeByName {path : List String}
    (found : file.findMessageTypeByName path = some m) :
    ∃ path, lookup file.messages file.enums path = some (.message m) := by
  unfold findMessageTypeByName at found
  split at found
  · rename_i type
    obtain rfl := Option.some.inj found
    exact exists_lookup_of_resolve type
  · cases found

end FileProto

namespace Protobuf

variable {pb : Protobuf} {text : List Token} {className : List String} {loaded : Loaded}
  {file : FileProto} {m : MessageProto}

theorem importFile_eq_some (imported : pb.importFile text = some file) :
    file.ok pb.checks = true :=
  (Option.filter_eq_some_iff.mp imported).2

theorem loadProto_ofFile (success : pb.loadProto text className = some loaded) :
    loaded.OfFile pb.checks := by
  simp only [loadProto, Option.bind_eq_bind, Option.bind_eq_some_iff] at success
  obtain ⟨file, imported, m, selected, eq⟩ := success
  obtain rfl := Option.some.inj eq
  refine ⟨importFile_eq_some imported, ?_, ?_⟩
  · unfold FileProto.messageDesc at selected
    split at selected
    · exact FileProto.exists_lookup_of_head selected
    · exact FileProto.exists_lookup_of_findMessageTypeByName selected
  · exact FileProto.foldl_addEnum_debugString

/-- With an empty class name the first message type of the file is taken. -/
theorem loadProto_first (imported : pb.importFile text = some file)
    (first : file.messages.head? = some m) :
    pb.loadProto text [] = some ⟨file, m, file.savedText m⟩ := by
  have selected : file.messageDesc [] = some m := first
  simp only [loadProto, imported, selected, Option.bind_eq_bind, Option.bind_some,
    FileProto.foldl_addEnum_debugString]

end Protobuf

end MicroserviceFramework.Config.Proto
