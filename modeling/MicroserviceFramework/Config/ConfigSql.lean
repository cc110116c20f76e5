import MicroserviceFramework.Auth.LoginQuery

/-!
# The texts of the config table's statements

The statements of `ConfigDAO` on the rows of a service share a condition, into which the address
is spliced as it is. `Statement.read` is what MySQL reads, and `Statement.read_where` that it is
the address, when that can stand in the text.
-/

namespace MicroserviceFramework.Config

open Library Library.Sql
open Auth (cstr cstr_eq_self Plain)

/-- The statements, by their texts before the condition. -/
inductive Statement where
  | selectId | update | selectPrivatePb | delete
  deriving DecidableEq, Repr

def Statement.text : Statement → String
  | selectId => "select id from cms_service_config"
  | update => "update `cms_service_config` set `private_pb`=?,`proto`=?,`service_ip`=?," ++
      "`service_name`=?,`service_port`=?  "
  | selectPrivatePb => "select private_pb from cms_service_config"
  | delete => "delete from cms_service_config"

def whereSql (ip : String) (port : Int32) : String :=
  " where service_ip='" ++ ip ++ "' and service_port=" ++ port.toInt.repr

/-- `service_ip='..' and service_port=..`. -/
structure Condition where
  ip : List Char
  port : Int
  deriving DecidableEq, Repr

/-- A decimal number. -/
def readNumber : List Token → Option Int
  | [.word w] => if w.all Char.isDigit then some (Nat.ofDigitChars 10 w 0) else none
  | [.sym '-', .word w] => if w.all Char.isDigit then some (-(Nat.ofDigitChars 10 w 0)) else none
  | _ => none

def Condition.read : List Token → Option Condition
  | .word filter :: .word first :: .sym '=' :: .str ip :: .word junction :: .word second ::
      .sym '=' :: number =>
    if filter = "where".toList ∧ first = "service_ip".toList ∧ junction = "and".toList ∧
        second = "service_port".toList then
      (readNumber number).map fun port => ⟨ip, port⟩
    else none
  | _ => none

/-- The tokens of the text. -/
def Statement.head : Statement → List Token
  | selectId => ["select", "id", "from", "cms_service_config"].map (.word ·.toList)
  | update =>
    [.word "update".toList, .name "cms_service_config".toList, .word "set".toList,
      .name "private_pb".toList, .sym '=', .sym '?', .sym ',',
      .name "proto".toList, .sym '=', .sym '?', .sym ',',
      .name "service_ip".toList, .sym '=', .sym '?', .sym ',',
      .name "service_name".toList, .sym '=', .sym '?', .sym ',',
      .name "service_port".toList, .sym '=', .sym '?']
  | selectPrivatePb => ["select", "private_pb", "from", "cms_service_config"].map (.word ·.toList)
  | delete => ["delete", "from", "cms_service_config"].map (.word ·.toList)

/-- The condition that MySQL reads after the text of the statement. -/
def Statement.read (s : Statement) (sql : String) : Option Condition :=
  (lex sql.toList).bind fun tokens =>
    if s.head <+: tokens then Condition.read (tokens.drop s.head.length) else none

/-! ## Reading an address back -/

theorem isWord_of_isDigit {c : Char} (digit : c.isDigit) : isWord c := by
  simp [isWord, Char.isAlphanum, digit]

theorem isSpace_of_isDigit {c : Char} (digit : c.isDigit) : isSpace c = false := by
  have low : 48 ≤ c.toNat := by simpa using (Char.isDigit_iff_toNat.mp digit).1
  rw [isSpace, decide_eq_false_iff_not]
  rintro (rfl | ⟨-, high⟩)
  · exact absurd low (by decide)
  · omega

theorem isDigit_of_mem_toDigits {n : Nat} {c : Char} (mem : c ∈ Nat.toDigits 10 n) : c.isDigit :=
  Nat.isDigit_of_mem_toDigits (by decide) (by decide) mem

/-- A number is one word. -/
theorem lexFrom_toDigits (n : Nat) :
    lexFrom .code (Nat.toDigits 10 n) = some [.word (Nat.toDigits 10 n)] := by
  have digits : ∀ c ∈ Nat.toDigits 10 n, c.isDigit := fun c => isDigit_of_mem_toDigits
  cases number : Nat.toDigits 10 n with
  | nil => exact absurd number Nat.toDigits_ne_nil
  | cons c cs =>
    rw [number] at digits
    have first := digits c List.mem_cons_self
    have silent : step .code c = ([], .word [c]) := by
      simp [step, start, isSpace_of_isDigit first, isWord_of_isDigit first]
    rw [lexFrom_silent silent]
    exact lexFrom_word (fun d mem => isWord_of_isDigit (digits d (List.mem_cons_of_mem _ mem))) [c]

theorem readNumber_toDigits (n : Nat) : readNumber [.word (Nat.toDigits 10 n)] = some n := by
  have digits : (Nat.toDigits 10 n).all Char.isDigit := by
    rw [List.all_eq_true]
    exact fun c => isDigit_of_mem_toDigits
  simp [readNumber, digits, Nat.ofDigitChars_ten_toDigits]

theorem lexFrom_repr (n : Int) :
    ∃ number, lexFrom .code n.repr.toList = some number ∧ readNumber number = some n := by
  cases n with
  | ofNat m =>
    refine ⟨[.word (Nat.toDigits 10 m)], ?_, readNumber_toDigits m⟩
    rw [Int.repr, Nat.toList_repr, lexFrom_toDigits]
  | negSucc m =>
    refine ⟨[.sym '-', .word (Nat.toDigits 10 (m + 1))], ?_, ?_⟩
    · have text : (Int.negSucc m).repr.toList = '-' :: Nat.toDigits 10 (m + 1) := by
        rw [Int.repr, String.toList_append, Nat.toList_repr]
        rfl
      have minus (cs : List Char) : lexFrom .code ('-' :: cs) = lexFrom .dash cs := lexFrom_silent rfl cs
      cases number : Nat.toDigits 10 (m + 1) with
      | nil => exact absurd number Nat.toDigits_ne_nil
      | cons c cs =>
        have digit : c.isDigit := isDigit_of_mem_toDigits (by rw [number]; exact List.mem_cons_self)
        have other : c ≠ '-' := by rintro rfl; exact absurd digit (by decide)
        have ended : step .dash c = ending [.sym '-'] c := by simp [step, other]
        rw [text, number, minus, lexFrom_ending ended, ← number, lexFrom_toDigits]
        rfl
    · have digits := readNumber_toDigits (m + 1)
      simp only [readNumber] at digits ⊢
      split at digits
      next all =>
        rw [if_pos all, Option.some.inj digits]
        rfl
      · cases digits

/-- The tokens of a statement before its address. -/
theorem transduce_where (s : Statement) :
    transduce step .code (s.text ++ " where service_ip='").toList =
      (s.head ++ [.word "where".toList, .word "service_ip".toList, .sym '='], .str quote []) := by
  cases s <;> decide +kernel

/-- What comes after the address. -/
def portSql (port : Int32) : List Char := ' ' :: ("and service_port=".toList ++ port.toInt.repr.toList)

theorem toList_whereSql (s : Statement) (ip : String) (port : Int32) :
    (s.text ++ whereSql ip port).toList =
      (s.text ++ " where service_ip='").toList ++ (ip.toList ++ quote :: portSql port) := by
  have port : "' and service_port=".toList = quote :: ' ' :: "and service_port=".toList := rfl
  unfold whereSql portSql
  simp only [String.toList_append, List.append_assoc, port, List.cons_append]

theorem lexFrom_portSql (port : Int32) :
    ∃ number, readNumber number = some port.toInt ∧ lexFrom .code (portSql port) =
      some (.word "and".toList :: .word "service_port".toList :: .sym '=' :: number) := by
  obtain ⟨number, lexed, read⟩ := lexFrom_repr port.toInt
  have start : transduce step .code (' ' :: "and service_port=".toList) =
      ([.word "and".toList, .word "service_port".toList, .sym '='], .code) := by decide +kernel
  refine ⟨number, read, ?_⟩
  rw [portSql, ← List.cons_append, lexFrom_append start, lexed]
  rfl

/-- An address that can stand in the text as it is, is what the statement asks for. -/
theorem Statement.read_where (s : Statement) {ip : String} (plain : Plain ip) (port : Int32) :
    s.read (s.text ++ whereSql ip port) = some ⟨ip.toList, port.toInt⟩ := by
  obtain ⟨number, numberRead, portLex⟩ := lexFrom_portSql port
  have follows : (portSql port).head? ≠ some quote := by
    rw [portSql, List.head?_cons]
    decide
  have literal : Literal quote ip.toList ip.toList := plain.2.literal Auth.quote_not_wildcard
  have address := literal.lexFrom Auth.quote_proper follows []
  have tokens : lex (s.text ++ whereSql ip port).toList =
      some (s.head ++ (.word "where".toList :: .word "service_ip".toList :: .sym '=' ::
        .str ip.toList :: .word "and".toList :: .word "service_port".toList :: .sym '=' ::
          number)) := by
    rw [lex, toList_whereSql, lexFrom_append (transduce_where s), address, portLex]
    simp only [List.nil_append, Option.map_some, List.append_assoc, List.cons_append]
  rw [Statement.read, tokens, Option.bind_some, if_pos (List.prefix_append _ _),
    List.drop_left, Condition.read, if_pos ⟨rfl, rfl, rfl, rfl⟩, numberRead, Option.map_some]

theorem mem_repr {n : Int} {c : Char} (mem : c ∈ n.repr.toList) : c.isDigit ∨ c = '-' := by
  cases n with
  | ofNat m =>
    rw [Int.repr, Nat.toList_repr] at mem
    exact .inl (isDigit_of_mem_toDigits mem)
  | negSucc m =>
    have minus : "-".toList = ['-'] := rfl
    rw [Int.repr, String.toList_append, Nat.toList_repr, minus] at mem
    rcases List.mem_cons.mp mem with sign | digit
    · exact .inr sign
    · exact .inl (isDigit_of_mem_toDigits digit)

/-- A C string loses nothing of such a text. -/
theorem cstr_whereSql (s : Statement) {ip : String} (plain : Plain ip) (port : Int32) :
    cstr (s.text ++ whereSql ip port) = s.text ++ whereSql ip port := by
  have start : Char.ofNat 0 ∉ (s.text ++ " where service_ip='").toList := by
    cases s <;> decide +kernel
  have number : Char.ofNat 0 ∉ portSql port := by
    intro mem
    rcases List.mem_cons.mp mem with blank | mem
    · exact absurd blank (by decide)
    rcases List.mem_append.mp mem with word | number
    · exact absurd word (by decide)
    · rcases mem_repr number with digit | sign
      · exact absurd digit (by decide)
      · exact absurd sign (by decide)
  apply cstr_eq_self
  rw [toList_whereSql]
  intro mem
  rcases List.mem_append.mp mem with before | mem
  · exact start before
  rcases List.mem_append.mp mem with address | mem
  · exact plain.1 address
  rcases List.mem_cons.mp mem with closing | after
  · exact absurd closing (by decide)
  · exact number after

end MicroserviceFramework.Config
