import MicroserviceFramework.Config.LoadProto

/-!
# Stored proto text loaded again

The text that `loadProto` writes has a package line even if the file has no package, it copies the
enums of the message's own fields to top level and it has no other type than the message. So it
can be loaded again, with the same fields, exactly if the message is self-contained.
-/

namespace MicroserviceFramework.Config.Proto

open Library

/-- The type that a full name has in a file with nothing but the message and the enums of its
fields, the first of every short name, under the same package. -/
def FileProto.keptType (file : FileProto) (m : MessageProto) (r : TypeName) : Option TypeDef :=
  resolve file.package [m] (file.copiedEnums m) r

/-- The file has a package; the message, the enums of its fields and their values can stand side by
side; and what the message and the messages nested in it name is the message itself, declared
inside it, or one of the enums. Where a type of the fields, or of their fields in turn, then has
another definition, it has the same fields or values. -/
structure SelfContained (file : FileProto) (m : MessageProto) : Prop where
  package : file.package ≠ []
  names : (symbols [m] (file.copiedEnums m)).Nodup
  defined : ∀ r ∈ m.typeNames, (file.keptType m r).isSome
  same : ∀ r, Unfolding.Reached Shape.typeNames file.shape (fieldTypeNames m.fields) r →
    (file.keptType m r).map TypeDef.shape = file.shape r

/-- The text is loaded again with an empty class name, as a message type with the same fields, and
the stored values are parsed as values of the type they were written as. -/
structure Reopens (pb : Protobuf) (loaded : Loaded) : Prop where
  again : ∃ reloaded, pb.loadProto loaded.outProtoCode [] = some reloaded ∧
    reloaded.layout = loaded.layout
  decodes : ∀ {α : Type} (parseFromString : (Nat → Unfolding.Tree Shape) → List UInt8 → Option α)
    (privatePb : List UInt8),
    pb.loadConfig parseFromString loaded.outProtoCode privatePb =
      parseFromString loaded.layout privatePb

section

variable {pb : Protobuf} {loaded : Loaded} {file : FileProto} {m : MessageProto}

theorem FileProto.messages_savedTypes :
    (file.savedTypes m).filterMap TypeDef.message? = [m] := by
  have enums : ((file.copiedEnums m).map TypeDef.enum).filterMap TypeDef.message? = [] := by
    rw [List.filterMap_map, List.filterMap_eq_nil_iff]
    exact fun _ _ => rfl
  rw [FileProto.savedTypes, List.filterMap_append, enums]
  rfl

theorem FileProto.enums_savedTypes :
    (file.savedTypes m).filterMap TypeDef.enum? = file.copiedEnums m := by
  have enums : ((file.copiedEnums m).map TypeDef.enum).filterMap TypeDef.enum? =
      file.copiedEnums m := by
    rw [List.filterMap_map]
    exact List.filterMap_some
  rw [FileProto.savedTypes, List.filterMap_append, enums]
  exact List.append_nil _

theorem importFile_savedText (pb : Protobuf) (m : MessageProto) (named : file.package ≠ []) :
    pb.importFile (file.savedText m) =
      if (file.saved m).ok pb.checks then some (file.saved m) else none := by
  rw [Protobuf.importFile, FileProto.savedText, pb.parse_types _ _ _ named,
    FileProto.messages_savedTypes, FileProto.enums_savedTypes]
  exact Option.filter_some

theorem loadProto_savedText (pb : Protobuf) (file : FileProto) (m : MessageProto) :
    pb.loadProto (file.savedText m) [] =
      if file.package ≠ [] ∧ (file.saved m).ok pb.checks then
        some ⟨file.saved m, m, (file.saved m).savedText m⟩
      else none := by
  by_cases named : file.package = []
  · have text : pb.importFile (file.savedText m) = none := by
      rw [Protobuf.importFile, FileProto.savedText, named, pb.parse_unnamed]
      rfl
    simp [Protobuf.loadProto, text, named]
  · have imported := importFile_savedText pb m named
    cases ok : (file.saved m).ok pb.checks with
    | true =>
      rw [ok, if_pos rfl] at imported
      rw [if_pos ⟨named, rfl⟩]
      exact Protobuf.loadProto_first imported rfl
    | false =>
      rw [ok, if_neg (by simp)] at imported
      simp [Protobuf.loadProto, imported]

theorem saved_ok_iff (ofFile : loaded.OfFile pb.checks) :
    (loaded.file.saved loaded.message).ok pb.checks = true ↔
      (symbols [loaded.message] (loaded.file.copiedEnums loaded.message)).Nodup ∧
        ∀ r ∈ loaded.message.typeNames, (loaded.file.keptType loaded.message r).isSome := by
  obtain ⟨path, found⟩ := ofFile.declared
  have message : loaded.message.ok pb.checks loaded.file.dialect = true :=
    TypeDef.ok_of_lookup (FileProto.declsOk_of_ok ofFile.ok) found
  have decls : declsOk pb.checks loaded.file.dialect [loaded.message]
      (loaded.file.copiedEnums loaded.message) = true := by
    rw [declsOk, allOk_eq, Bool.and_eq_true, List.all_eq_true]
    exact ⟨fun e mem => FileProto.ok_of_mem_copiedEnums ofFile.ok mem, by simp [message]⟩
  have named : allTypeNames (loaded.file.saved loaded.message).messages =
      loaded.message.typeNames := List.append_nil _
  rw [FileProto.ok, Bool.and_eq_true, Bool.and_eq_true, decide_eq_true_eq, List.all_eq_true,
    named]
  constructor
  · rintro ⟨⟨names, -⟩, defined⟩
    exact ⟨names, defined⟩
  · rintro ⟨names, defined⟩
    exact ⟨⟨names, decls⟩, defined⟩

theorem layout_saved_iff :
    (file.saved m).layout m = file.layout m ↔
      ∀ r, Unfolding.Reached Shape.typeNames file.shape (fieldTypeNames m.fields) r →
        (file.keptType m r).map TypeDef.shape = file.shape r := by
  have below : (file.saved m).layout m = file.layout m ↔
      ∀ n, (fieldTypeNames m.fields).map (Unfolding.unfold Shape.typeNames file.shape n) =
        (fieldTypeNames m.fields).map
          (Unfolding.unfold Shape.typeNames (file.saved m).shape n) := by
    simp only [funext_iff, FileProto.layout, Unfolding.Tree.node.injEq, true_and]
    exact forall_congr' fun n => eq_comm
  exact below.trans Unfolding.unfold_eq_iff

theorem Reopens.of_again (ofFile : loaded.OfFile pb.checks) {reloaded : Loaded}
    (again : pb.loadProto loaded.outProtoCode [] = some reloaded)
    (same : reloaded.layout = loaded.layout) : Reopens pb loaded := by
  refine ⟨⟨reloaded, again, same⟩, fun parseFromString privatePb => ?_⟩
  have written : loaded.outProtoCode.isEmpty = false := by
    rw [ofFile.text]
    rfl
  rw [Protobuf.loadConfig, written, again, ← same]
  rfl

theorem reopens_iff_selfContained (ofFile : loaded.OfFile pb.checks) :
    Reopens pb loaded ↔ SelfContained loaded.file loaded.message := by
  constructor
  · rintro ⟨⟨reloaded, again, same⟩, -⟩
    rw [ofFile.text, loadProto_savedText, Option.ite_none_right_eq_some] at again
    obtain ⟨⟨package, ok⟩, eq⟩ := again
    obtain rfl := Option.some.inj eq
    obtain ⟨names, defined⟩ := (saved_ok_iff ofFile).mp ok
    exact ⟨package, names, defined, layout_saved_iff.mp same⟩
  · intro ⟨package, names, defined, same⟩
    have ok := (saved_ok_iff ofFile).mpr ⟨names, defined⟩
    have again := loadProto_savedText pb loaded.file loaded.message
    rw [if_pos ⟨package, ok⟩, ← ofFile.text] at again
    exact .of_again ofFile again (layout_saved_iff.mpr same)

end

/-! ## Types that are kept -/

section

variable {checks : Checks} {loaded : Loaded} {file : FileProto} {m : MessageProto} {r : TypeName}

/-- What a message of the top level declares has the same names in the text. -/
theorem keptType_own (top : file.messages.find? (·.name == m.name) = some m) {path : List String}
    (own : r.1 = file.package ++ m.name :: path) : file.keptType m r = file.find r := by
  rw [FileProto.keptType, FileProto.find, own]
  cases path <;> simp [resolve, lookup, top]

/-- If every type that the message names is kept, its fields lead to no other types. -/
theorem mem_typeNames_of_reached (kept : ∀ r ∈ m.typeNames, file.keptType m r = file.find r)
    (reached : Unfolding.Reached Shape.typeNames file.shape (fieldTypeNames m.fields) r) :
    r ∈ m.typeNames := by
  induction reached with
  | start named =>
    rw [m.typeNames_eq]
    exact List.mem_append_right _ named
  | step _ defined used ih =>
    obtain ⟨d, found, rfl⟩ := Option.map_eq_some_iff.mp defined
    rw [← kept _ ih] at found
    cases d with
    | enum e => cases used
    | message inner =>
      obtain ⟨path, declared⟩ := exists_lookup_of_resolve found
      have named := typeNames_subset_of_lookup declared
      rw [allTypeNames, allTypeNames, List.append_nil] at named
      apply named
      rw [inner.typeNames_eq]
      exact List.mem_append_right _ used

theorem SelfContained.of_kept (ofFile : loaded.OfFile checks) (package : loaded.file.package ≠ [])
    (names : (symbols [loaded.message] (loaded.file.copiedEnums loaded.message)).Nodup)
    (kept : ∀ r ∈ loaded.message.typeNames,
      loaded.file.keptType loaded.message r = loaded.file.find r) :
    SelfContained loaded.file loaded.message := by
  refine ⟨package, names, fun r named => ?_, fun r reached => ?_⟩
  · obtain ⟨path, found⟩ := ofFile.declared
    rw [kept r named]
    exact FileProto.find_of_ok ofFile.ok (typeNames_subset_of_lookup found named)
  · rw [kept r (mem_typeNames_of_reached kept reached)]
    rfl

end

def cmsgName (path : List String) : TypeName := ⟨"cmsg" :: path, List.cons_ne_nil _ _⟩

def logLevel : EnumProto := ⟨"CLogLevel", [("CLOG_DEBUG", 0), ("CLOG_INFO", 1)]⟩

/-- A message with fields of every kind, and types of its own. -/
def dirConfig : MessageProto where
  name := "CDirConfig"
  nested := [{ name := "Mirror", fields := [⟨.repeated, .scalar .string, "ips", 1⟩] }]
  enums := [⟨"Mode", [("READ", 0), ("WRITE", 1)]⟩]
  fields := [
    ⟨.singular, .scalar .string, "root", 1⟩,
    ⟨.singular, .named (cmsgName ["CDirConfig", "Mode"]), "mode", 2⟩,
    ⟨.singular, .named (cmsgName ["CLogLevel"]), "level", 3⟩,
    ⟨.repeated, .named (cmsgName ["CDirConfig", "Mirror"]), "mirrors", 4⟩]

def dirConfigText : List Token :=
  syntaxLine .proto3 ++ packageLine ["cmsg"] ++
    [TypeDef.enum logLevel, .message dirConfig].flatMap TypeDef.debugString

def portConf : MessageProto where
  name := "CConf"
  fields := [⟨.singular, .scalar .int32, "port", 1⟩]

def endpoint : MessageProto where
  name := "CEndpoint"
  fields := [⟨.singular, .scalar .string, "ip", 1⟩]

def backupConf : MessageProto where
  name := "CConf"
  fields := [⟨.singular, .named (cmsgName ["CEndpoint"]), "backup", 1⟩]

end MicroserviceFramework.Config.Proto
