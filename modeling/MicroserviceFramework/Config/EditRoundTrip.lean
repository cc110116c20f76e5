import MicroserviceFramework.Config.ConfigEdit

/-!
# Opening and saving a configuration

`saved` is the message after `initGui` and `save` without an edit, field by field, and `Keeps` says
which values come back from their widget. A spin box has no negative numbers unless its maximum is
negative, which that of an `int64` is; a combo box has the declared values; a line edit has the
text up to the first NUL.
-/

namespace MicroserviceFramework.Config

open Auth (cstr cstr_eq_self)
open Library.Wire Platform

/-- What comes back from the widget of a value. -/
def shown (qt : Qt) : (t : FieldType) → t.Value → t.Value
  | .int64, _ => -1
  | .int32, n => if n < 0 then 0 else n
  | .bytes, b => Kind.utf8 (qt.text b)
  | .string, s => cstr s
  | .bool, b => b
  | .enum values, n => if n ∈ values.map (·.2) then n else 0

/-- The values that come back as they are. -/
def Keeps : (t : FieldType) → t.Value → Prop
  | .int64, n => n = -1
  | .int32, n => 0 ≤ n
  | .bytes, b => 0 ∉ b ∧ (Kind.ofUtf8? b).isSome
  | .string, s => Char.ofNat 0 ∉ s.toList
  | .bool, _ => True
  | .enum values, n => n ∈ values.map (·.2) ∨ n = 0

instance : (t : FieldType) → (v : t.Value) → Decidable (Keeps t v)
  | .int64, n => inferInstanceAs (Decidable (n = -1))
  | .int32, n => inferInstanceAs (Decidable (0 ≤ n))
  | .bytes, _ => inferInstanceAs (Decidable (_ ∧ _))
  | .string, s => inferInstanceAs (Decidable (Char.ofNat 0 ∉ s.toList))
  | .bool, _ => .isTrue trivial
  | .enum values, n => inferInstanceAs (Decidable (n ∈ values.map (·.2) ∨ n = 0))

/-! ## Texts -/

theorem utf8_ofUtf8? {b : List UInt8} {s : String} (valid : Kind.ofUtf8? b = some s) :
    Kind.utf8 s = b := by
  unfold Kind.ofUtf8? String.fromUTF8? at valid
  split at valid
  next proper =>
    obtain rfl := Option.some.inj valid
    simp [Kind.utf8, String.fromUTF8]
  · simp at valid

/-- A C string of UTF-8 is the UTF-8 of the C string. -/
theorem takeWhile_utf8 (s : String) :
    (Kind.utf8 s).takeWhile (· ≠ 0) = Kind.utf8 (cstr s) := by
  rw [Kind.utf8_eq, Kind.utf8_eq, cstr, String.toList_ofList]
  induction s.toList with
  | nil => rfl
  | cons c cs ih =>
    by_cases nul : c = Char.ofNat 0
    · subst nul
      have zero : String.utf8EncodeChar (Char.ofNat 0) = [0] := by decide
      simp [zero]
    · have none : ∀ b ∈ String.utf8EncodeChar c, decide (b ≠ 0) = true := by
        intro b mem
        rw [decide_eq_true_iff]
        rintro rfl
        exact nul ((Kind.zero_mem_utf8EncodeChar c).mp mem)
      rw [List.flatMap_cons, List.takeWhile_append_of_pos none, ih,
        List.takeWhile_cons_of_pos (by simpa using nul), List.flatMap_cons]

theorem Qt.text_utf8 (qt : Qt) (s : String) : qt.text (Kind.utf8 s) = cstr s := by
  rw [Qt.text, takeWhile_utf8, qt.fromUtf8_utf8]

theorem Qt.text_nul (qt : Qt) (b : List UInt8) : Char.ofNat 0 ∉ (qt.text b).toList := by
  refine qt.fromUtf8_nul _ fun mem => ?_
  have kept := List.mem_takeWhile_imp mem
  simp at kept

theorem cstr_eq_self_iff (s : String) : cstr s = s ↔ Char.ofNat 0 ∉ s.toList := by
  refine ⟨fun same => ?_, cstr_eq_self⟩
  rw [← same, cstr, String.toList_ofList]
  intro mem
  have kept := List.mem_takeWhile_imp mem
  simp at kept

theorem Qt.utf8_text_eq_iff (qt : Qt) (b : List UInt8) :
    Kind.utf8 (qt.text b) = b ↔ 0 ∉ b ∧ (Kind.ofUtf8? b).isSome := by
  constructor
  · intro same
    refine ⟨fun zero => ?_, by rw [← same, Kind.ofUtf8?_utf8]; rfl⟩
    rw [← same, Kind.zero_mem_utf8] at zero
    exact qt.text_nul b zero
  · rintro ⟨free, valid⟩
    obtain ⟨s, decoded⟩ := Option.isSome_iff_exists.mp valid
    obtain rfl := utf8_ofUtf8? decoded
    rw [qt.text_utf8, cstr_eq_self (by rwa [Kind.zero_mem_utf8] at free)]

/-! ## Widgets -/

theorem bound_point (n m : Int32) : QSpinBox.bound ⟨n, n, n⟩ m = n := by
  unfold QSpinBox.bound
  split
  · rfl
  · split
    · rfl
    next lower upper => exact Int32.le_antisymm (Int32.not_lt.mp upper) (Int32.not_lt.mp lower)

theorem items_foldl_addItem (values : List (String × Int32)) (c : QComboBox) :
    (values.foldl (fun c value => c.addItem value.1 (.int value.2)) c).items =
      c.items ++ values.map fun value => (value.1, .int value.2) := by
  induction values generalizing c with
  | nil => simp
  | cons value values ih =>
    rw [List.foldl_cons, ih]
    simp [QComboBox.addItem]

theorem currentData_findData (c : QComboBox) (data : QVariant) :
    (c.setCurrentIndex (c.findData data)).currentData =
      if data ∈ c.items.map (·.2) then data else .invalid := by
  unfold QComboBox.currentData QComboBox.setCurrentIndex QComboBox.findData
  cases found : c.items.findIdx? (·.2 = data) with
  | none =>
    have absent := List.findIdx?_eq_none_iff.mp found
    have missing : data ∉ c.items.map (·.2) := by
      intro mem
      obtain ⟨item, listed, same⟩ := List.mem_map.mp mem
      simpa [same] using absent item listed
    rw [if_neg missing]
    rfl
  | some i =>
    obtain ⟨inside, same, -⟩ := List.findIdx?_eq_some_iff_getElem.mp found
    have at_i : c.items[i].2 = data := by simpa using same
    have listed : data ∈ c.items.map (·.2) := List.mem_map.mpr ⟨_, List.getElem_mem inside, at_i⟩
    rw [if_pos listed, Option.bind_some, List.getElem?_eq_getElem inside]
    exact at_i

theorem fromWidget_toWidget (qt : Qt) (t : FieldType) (v : t.Value) :
    fromWidget t (toWidget qt t v) = some (shown qt t v) := by
  cases t with
  | int64 =>
    have range : (({} : QSpinBox).setMaximum Int64.maxValue.toInt32) = ⟨-1, -1, -1⟩ := by decide
    simp only [toWidget, fromWidget, range, QSpinBox.setValue, bound_point, shown]
    rfl
  | int32 =>
    have range : (({} : QSpinBox).setMaximum Int32.maxValue) = ⟨0, Int32.maxValue, 0⟩ := by decide
    have below : ¬Int32.maxValue < v := Int32.not_lt.mpr (Int32.le_maxValue v)
    simp only [toWidget, fromWidget, range, QSpinBox.setValue, QSpinBox.bound, below, if_false,
      shown]
  | bytes => rfl
  | string => simp only [toWidget, fromWidget, shown, qt.text_utf8]
  | bool => cases v <;> rfl
  | enum values =>
    simp only [toWidget, fromWidget, currentData_findData, items_foldl_addItem, shown]
    by_cases declared : v ∈ values.map (·.2)
    · obtain ⟨value, listed, rfl⟩ := List.mem_map.mp declared
      have item : QVariant.int value.2 ∈ (List.map (·.2)
          (([] : List (String × QVariant)) ++ values.map fun value => (value.1, .int value.2))) := by
        simp only [List.nil_append, List.map_map]
        exact List.mem_map.mpr ⟨value, listed, rfl⟩
      rw [if_pos declared, if_pos item]
      rfl
    · have item : QVariant.int v ∉ (List.map (·.2)
          (([] : List (String × QVariant)) ++ values.map fun value => (value.1, .int value.2))) := by
        simpa using declared
      rw [if_neg declared, if_neg item]
      rfl

theorem shown_eq_iff (qt : Qt) (t : FieldType) (v : t.Value) : shown qt t v = v ↔ Keeps t v := by
  cases t with
  | int64 => exact eq_comm
  | int32 =>
    simp only [shown, Keeps]
    split
    next negative =>
      have not : ¬(0 : Int32) ≤ v := Int32.not_le.mpr negative
      refine iff_of_false ?_ not
      rintro rfl
      exact absurd negative (by decide)
    next positive => exact iff_of_true rfl (Int32.not_lt.mp positive)
  | bytes => exact qt.utf8_text_eq_iff v
  | string => exact cstr_eq_self_iff v
  | bool => exact iff_of_true rfl trivial
  | enum values =>
    simp only [shown, Keeps]
    split
    next declared => exact iff_of_true rfl (.inl declared)
    next undeclared =>
      constructor
      · exact fun zero => .inr zero.symm
      · rintro (declared | zero)
        · exact absurd declared undeclared
        · exact zero.symm

/-! ## The editor -/

namespace ConfigEdit

variable {desc : Descriptor} (qt : Qt)

/-- The message after opening and saving. -/
def saved (message : desc.DynamicMessage) : desc.DynamicMessage :=
  fun f => shown qt (desc.type f) (message f)

theorem name_injective {f g : desc.Field} (same : desc.name f = desc.name g) : f = g := by
  have at_f : f.val < (desc.fields.map (·.name)).length := by simp
  have at_g : g.val < (desc.fields.map (·.name)).length := by simp
  have names : (desc.fields.map (·.name))[f.val] = (desc.fields.map (·.name))[g.val] := by
    simpa [Descriptor.name] using same
  exact Fin.ext ((desc.nodup.getElem_inj_iff).mp names)

theorem cstr_name (f : desc.Field) : cstr (desc.name f) = desc.name f := by
  refine cstr_eq_self fun nul => ?_
  have identifier := List.all_eq_true.mp desc.identifiers _ (List.getElem_mem f.isLt)
  exact absurd (List.all_eq_true.mp identifier _ nul) (by decide)

theorem findFieldByName_name (f : desc.Field) : desc.findFieldByName (desc.name f) = some f := by
  have found : (desc.findFieldByName (desc.name f)).isSome := by
    rw [Descriptor.findFieldByName, List.find?_isSome]
    exact ⟨f, List.mem_finRange f, by simp⟩
  obtain ⟨g, here⟩ := Option.isSome_iff_exists.mp found
  have same := List.find?_some here
  rw [here, name_injective (of_decide_eq_true same)]

/-- The row of a field sets it to what its widget shows. -/
theorem saveRow_row (message before : desc.DynamicMessage) (f : desc.Field) :
    saveRow before (qt.text (Kind.utf8 (desc.name f)), toWidget qt (desc.type f) (message f)) =
      Function.update before f (saved qt message f) := by
  simp only [saveRow, qt.text_utf8, cstr_name, findFieldByName_name, fromWidget_toWidget, saved]

theorem foldl_update {ι : Type*} [DecidableEq ι] {α : ι → Type*} (value : (i : ι) → α i)
    (l : List ι) (before : (i : ι) → α i) :
    l.foldl (fun out i => Function.update out i (value i)) before =
      fun i => if i ∈ l then value i else before i := by
  induction l generalizing before with
  | nil => simp
  | cons i l ih =>
    rw [List.foldl_cons, ih]
    funext j
    by_cases same : j = i
    · subst same
      simp
    · simp [same]

/-- The loop of `save` over the rows of `initGui`. -/
theorem foldl_saveRow (message before : desc.DynamicMessage) :
    (messageRows qt message).foldl saveRow before = saved qt message := by
  simp only [messageRows, List.foldl_map, saveRow_row, foldl_update, List.mem_finRange, if_true]

/-- The texts without which `save` refuses are there. -/
def Shows (config : CConfig) : Prop :=
  cstr config.serviceName ≠ "" ∧ cstr config.serviceIp ≠ "" ∧
    qt.toPlainText (qt.text config.proto) ≠ ""

instance (config : CConfig) : Decidable (Shows qt config) :=
  inferInstanceAs (Decidable (_ ∧ _ ∧ _))

/-- Opened and saved without an edit, the editor uploads a message that is read as `message`. -/
def SavesSame (codec : Codec desc.DynamicMessage) (config : CConfig) (message : desc.DynamicMessage)
    (ui : Ui) : Prop :=
  ∃ upload, ((initGui qt ⟨config, some message, ui⟩).save codec.serialize).2 = some upload ∧
    codec.parse upload.privatePb = (true, message)

theorem save_initGui (codec : Codec desc.DynamicMessage) (config : CConfig)
    (message : desc.DynamicMessage) (ui : Ui) :
    SavesSame qt codec config message ui ↔
      Shows qt config ∧ codec.parse (codec.serialize (saved qt message)) = (true, message) := by
  simp only [SavesSame, initGui, save, qt.text_utf8, foldl_saveRow, Shows]
  split
  next empty => grind
  next shown => grind

/-- Protobuf reads messages within its limit of 2 GiB as it wrote them. -/
def Lawful {M : Type} (codec : Codec M) : Prop :=
  ∀ m, (codec.serialize m).length < 2 ^ 31 → codec.parse (codec.serialize m) = (true, m)

variable {qt}

theorem savesSame_iff_saved {codec : Codec desc.DynamicMessage} (lawful : Lawful codec)
    {config : CConfig} {message : desc.DynamicMessage} {ui : Ui}
    (fits : (codec.serialize (saved qt message)).length < 2 ^ 31) :
    SavesSame qt codec config message ui ↔ Shows qt config ∧ saved qt message = message := by
  rw [save_initGui, lawful _ fits, Prod.mk.injEq, and_iff_right rfl]

theorem saved_eq_iff (message : desc.DynamicMessage) :
    saved qt message = message ↔ ∀ f, Keeps (desc.type f) (message f) := by
  rw [funext_iff]
  exact forall_congr' fun f => shown_eq_iff qt (desc.type f) (message f)

/-- A decoder that replaces all of a text that is not UTF-8. -/
def replacing : Qt where
  fromUtf8 b := (Kind.ofUtf8? b).getD (String.ofList [Char.ofNat 0xFFFD])
  fromUtf8_utf8 s := by rw [Kind.ofUtf8?_utf8, Option.getD_some]
  fromUtf8_nul b free := by
    cases decoded : Kind.ofUtf8? b with
    | none => decide
    | some s =>
      rw [Option.getD_some, ← Kind.zero_mem_utf8, utf8_ofUtf8? decoded]
      exact free
  toPlainText := id

def settings : Descriptor where
  fields := [⟨"threads", .int32⟩, ⟨"timeout_ms", .int64⟩]
  nodup := by decide
  identifiers := by decide

def setting (threads : Int32) (timeout : Int64) : settings.DynamicMessage
  | ⟨0, _⟩ => threads
  | ⟨1, _⟩ => timeout

instance : Message settings.DynamicMessage where
  layout := (Layout.values [.int32, .int64]).iso
    (fun (threads, timeout, ()) => setting threads timeout)
    (fun m => (m ⟨0, by decide⟩, m ⟨1, by decide⟩, ())) (fun _ => rfl) (by
      intro m
      funext f
      match f with
      | ⟨0, _⟩ => rfl
      | ⟨1, _⟩ => rfl)
  few := by decide

open Library.Wire.Reader

theorem settings_lawful : Lawful (Message.codec : Codec settings.DynamicMessage) :=
  fun _ fits => Message.parse_serialize fits

def gateConfig : CConfig where
  serviceName := "gate"
  servicePort := 20010
  serviceIp := "127.0.0.1"
  proto := Kind.utf8 "syntax"

end ConfigEdit

end MicroserviceFramework.Config
