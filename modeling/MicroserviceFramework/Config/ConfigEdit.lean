import Mathlib.Logic.Function.Basic
import MicroserviceFramework.Auth.Login
import MicroserviceFramework.Platform.CMsgCom

/-!
# The editor of a configuration

`ConfigEdit` shows a message whose type is known at run time only: `initGui` makes a widget for
every field, and `save` sets every field from its widget. A message is a value for every field of
its descriptor, so reflection is reading and updating a function.

The widgets are those of Qt 5 as far as the two functions use them. How Qt decodes bytes that are
not UTF-8 is a parameter, as are the text of a document and the serialiser of the message.
-/

namespace MicroserviceFramework.Config

open Library.Wire Platform

/-! ## Qt -/

/-- `QSpinBox`; the minimum is 0 and the maximum 99 unless they are set. -/
structure QSpinBox where
  minimum : Int32 := 0
  maximum : Int32 := 99
  value : Int32 := 0
  deriving DecidableEq, Repr

namespace QSpinBox

def bound (b : QSpinBox) (n : Int32) : Int32 :=
  if n < b.minimum then b.minimum else if b.maximum < n then b.maximum else n

/-- The minimum is adjusted so that the range remains valid, and then the value. -/
def setMaximum (b : QSpinBox) (n : Int32) : QSpinBox :=
  let b := { b with minimum := if b.minimum < n then b.minimum else n, maximum := n }
  { b with value := b.bound b.value }

def setValue (b : QSpinBox) (n : Int32) : QSpinBox := { b with value := b.bound n }

end QSpinBox

inductive QVariant where
  | invalid
  | bool (b : Bool)
  | int (n : Int32)
  deriving DecidableEq, Repr

namespace QVariant

def toBool : QVariant → Bool
  | invalid => false
  | bool b => b
  | int n => n ≠ 0

def toInt : QVariant → Int32
  | invalid => 0
  | bool b => if b then 1 else 0
  | int n => n

end QVariant

/-- `QComboBox`: texts with their data, and the index, where `none` is -1. -/
structure QComboBox where
  items : List (String × QVariant) := []
  currentIndex : Option Nat := none
  deriving DecidableEq, Repr

namespace QComboBox

/-- The first item that is added becomes the current one. -/
def addItem (c : QComboBox) (text : String) (data : QVariant) : QComboBox where
  items := c.items ++ [(text, data)]
  currentIndex := if c.items = [] then some 0 else c.currentIndex

def setCurrentIndex (c : QComboBox) (index : Option Nat) : QComboBox :=
  { c with currentIndex := index }

def findData (c : QComboBox) (data : QVariant) : Option Nat := c.items.findIdx? (·.2 = data)

def currentData (c : QComboBox) : QVariant :=
  match c.currentIndex.bind (c.items[·]?) with
  | some item => item.2
  | none => .invalid

end QComboBox

/-- What is left to Qt: a decoder of UTF-8 that replaces what is no UTF-8 and makes up no NUL, and
the plain text of a document that is set from a text. -/
structure Qt where
  fromUtf8 : List UInt8 → String
  fromUtf8_utf8 : ∀ s, fromUtf8 (Kind.utf8 s) = s
  fromUtf8_nul : ∀ bytes, 0 ∉ bytes → Char.ofNat 0 ∉ (fromUtf8 bytes).toList
  toPlainText : String → String

/-- `QString(bytes.c_str())`. -/
def Qt.text (qt : Qt) (bytes : List UInt8) : String := qt.fromUtf8 (bytes.takeWhile (· ≠ 0))

inductive Widget where
  | spinBox (b : QSpinBox)
  | lineEdit (text : String)
  | comboBox (c : QComboBox)
  deriving DecidableEq, Repr

/-! ## Messages -/

/-- The type of a field, where an enumeration has its values in the order of their declaration. -/
inductive FieldType where
  | int64 | int32 | bytes | string | bool
  | enum (values : List (String × Int32))
  deriving DecidableEq, Repr

abbrev FieldType.Value : FieldType → Type
  | int64 => Int64
  | int32 => Int32
  | bytes => List UInt8
  | string => String
  | bool => Bool
  | enum _ => Int32

structure FieldDescriptor where
  name : String
  type : FieldType
  deriving DecidableEq, Repr

/-- The names of the fields are identifiers, each used once. -/
structure Descriptor where
  fields : List FieldDescriptor
  nodup : (fields.map (·.name)).Nodup
  identifiers : fields.all fun field => field.name.toList.all fun c => c.isAlphanum || c = '_'

namespace Descriptor

variable (desc : Descriptor)

abbrev Field := Fin desc.fields.length

def name (f : desc.Field) : String := desc.fields[f].name

def type (f : desc.Field) : FieldType := desc.fields[f].type

def findFieldByName (name : String) : Option desc.Field :=
  (List.finRange _).find? fun f => desc.name f = name

/-- A value for every field, the default unless it is set. -/
abbrev DynamicMessage := (f : desc.Field) → (desc.type f).Value

end Descriptor

/-! ## The editor -/

/-- The widget of `initGui` for a value. -/
def toWidget (qt : Qt) : (t : FieldType) → t.Value → Widget
  -- both conversions to `int` keep the low 32 bits
  | .int64, n => .spinBox ((({} : QSpinBox).setMaximum Int64.maxValue.toInt32).setValue n.toInt32)
  | .int32, n => .spinBox ((({} : QSpinBox).setMaximum Int32.maxValue).setValue n)
  | .bytes, b => .lineEdit (qt.text b)
  | .string, s => .lineEdit (qt.text (Kind.utf8 s))
  | .bool, b =>
    let c := (({} : QComboBox).addItem "true" (.bool true)).addItem "false" (.bool false)
    .comboBox (c.setCurrentIndex (some (if b then 0 else 1)))
  | .enum values, n =>
    let c := values.foldl (fun c value => c.addItem value.1 (.int value.2)) ({} : QComboBox)
    .comboBox (c.setCurrentIndex (c.findData (.int n)))

/-- The value that `save` takes from a widget, if it is of the class it expects. -/
def fromWidget : (t : FieldType) → Widget → Option t.Value
  | .int64, .spinBox b => some b.value.toInt64
  | .int32, .spinBox b => some b.value
  | .bytes, .lineEdit text => some (Kind.utf8 text)
  | .string, .lineEdit text => some text
  | .bool, .comboBox c => some c.currentData.toBool
  | .enum _, .comboBox c => some c.currentData.toInt
  | _, _ => none

structure Ui where
  serviceNameLineEdit : String := ""
  serviceIpLineEdit : String := ""
  servicePortSpinBox : QSpinBox := { minimum := 1, maximum := 65535, value := 1 }
  protoTextEdit : String := ""
  /-- The rows after the basic ones: the text of the label, and the widget. -/
  rows : List (String × Widget) := []
  deriving DecidableEq, Repr

structure ConfigEdit (desc : Descriptor) where
  config_ : CConfig := {}
  message_ : Option desc.DynamicMessage := none
  ui : Ui := {}

namespace ConfigEdit

variable {desc : Descriptor} (qt : Qt)

/-- The rows for the fields of a message. -/
def messageRows (message : desc.DynamicMessage) : List (String × Widget) :=
  (List.finRange _).map fun f =>
    (qt.text (Kind.utf8 (desc.name f)), toWidget qt (desc.type f) (message f))

def initGui (e : ConfigEdit desc) : ConfigEdit desc where
  config_ := e.config_
  message_ := e.message_
  ui := {
    serviceIpLineEdit := qt.text (Kind.utf8 e.config_.serviceIp)
    serviceNameLineEdit := qt.text (Kind.utf8 e.config_.serviceName)
    servicePortSpinBox := e.ui.servicePortSpinBox.setValue e.config_.servicePort
    protoTextEdit := qt.toPlainText (qt.text e.config_.proto)
    rows := match e.message_ with
      | none => []
      | some message => messageRows qt message }

/-- One row of the loop in `save`. -/
def saveRow (message : desc.DynamicMessage) (row : String × Widget) : desc.DynamicMessage :=
  match desc.findFieldByName row.1 with
  | none => message
  | some f =>
    match fromWidget (desc.type f) row.2 with
    | none => message
    | some v => Function.update message f v

/-- The editor afterwards, and the config that is uploaded. -/
def save (serialize : desc.DynamicMessage → List UInt8) (e : ConfigEdit desc) :
    ConfigEdit desc × Option CConfig :=
  match e.message_ with
  | none => (e, none)
  | some message =>
    if e.ui.serviceNameLineEdit = "" ∨ e.ui.serviceIpLineEdit = "" ∨ e.ui.protoTextEdit = "" then
      (e, none)
    else
      let message := e.ui.rows.foldl saveRow message
      ({ e with message_ := some message }, some {
        serviceName := e.ui.serviceNameLineEdit
        serviceIp := e.ui.serviceIpLineEdit
        servicePort := e.ui.servicePortSpinBox.value
        proto := Kind.utf8 e.ui.protoTextEdit
        privatePb := serialize message })

end ConfigEdit

end MicroserviceFramework.Config
