import MicroserviceFramework.Auth.Tokens
import Mathlib.Data.String.Basic

/-!
# The statements that `CMysql` puts together

`CMysql` builds `INSERT` and `UPDATE` texts from a map of columns: with the data in the text, or
with a placeholder for each of them and an array of bindings beside it. Both loops append a comma
after every entry and overwrite the last one.

`π` stands for the pointers in a `CData`. `getInsertSql` and `getUpdateSql` append the C string at
them, so there they are strings; `insertBin` and `updateBin` copy them.
-/

namespace MicroserviceFramework.Mysql

open Auth (cstr CAddUserReq)

/-- `CFieldType`, the column types of MySQL. -/
inductive CFieldType where
  | CMYSQL_TYPE_DECIMAL | CMYSQL_TYPE_TINY | CMYSQL_TYPE_SHORT | CMYSQL_TYPE_LONG
  | CMYSQL_TYPE_FLOAT | CMYSQL_TYPE_DOUBLE | CMYSQL_TYPE_NULL | CMYSQL_TYPE_TIMESTAMP
  | CMYSQL_TYPE_LONGLONG | CMYSQL_TYPE_INT24 | CMYSQL_TYPE_DATE | CMYSQL_TYPE_TIME
  | CMYSQL_TYPE_DATETIME | CMYSQL_TYPE_YEAR | CMYSQL_TYPE_NEWDATE | CMYSQL_TYPE_VARCHAR
  | CMYSQL_TYPE_BIT | CMYSQL_TYPE_TIMESTAMP2 | CMYSQL_TYPE_DATETIME2 | CMYSQL_TYPE_TIME2
  | CMYSQL_TYPE_JSON | CMYSQL_TYPE_NEWDECIMAL | CMYSQL_TYPE_ENUM | CMYSQL_TYPE_SET
  | CMYSQL_TYPE_TINY_BLOB | CMYSQL_TYPE_MEDIUM_BLOB | CMYSQL_TYPE_LONG_BLOB | CMYSQL_TYPE_BLOB
  | CMYSQL_TYPE_VAR_STRING | CMYSQL_TYPE_STRING | CMYSQL_TYPE_GEOMETRY
  deriving DecidableEq, Repr

structure CData (π : Type*) where
  data : π
  size : Int32
  type : CFieldType
  deriving DecidableEq, Repr

/-- `CData(const char *data)`. -/
def CData.ofCString (s : String) : CData String where
  data := s
  size := Int32.ofNat (cstr s).utf8ByteSize
  type := .CMYSQL_TYPE_STRING

/-- `std::map<std::string, CData>`: one entry for each key, in the order of the keys. -/
structure MData (π : Type*) where
  entries : List (String × CData π) := []
  sorted : entries.Pairwise (fun e f => e.1 < f.1) := by simp

namespace MData

variable {π : Type*}

def put (key : String) (d : CData π) : List (String × CData π) → List (String × CData π)
  | [] => [(key, d)]
  | e :: es =>
    if key < e.1 then (key, d) :: e :: es
    else if e.1 < key then e :: put key d es
    else (key, d) :: es

theorem mem_put {key : String} {d : CData π} {es : List (String × CData π)}
    {e : String × CData π} (mem : e ∈ put key d es) : e = (key, d) ∨ e ∈ es := by
  fun_induction put key d es with
  | case1 => exact .inl (List.mem_singleton.mp mem)
  | case2 => exact List.mem_cons.mp mem
  | case3 => grind
  | case4 => grind

theorem sorted_put {key : String} {d : CData π} {es : List (String × CData π)}
    (sorted : es.Pairwise fun e f => e.1 < f.1) :
    (put key d es).Pairwise fun e f => e.1 < f.1 := by
  fun_induction put key d es with
  | case1 => exact List.pairwise_singleton _ _
  | case2 e es before =>
    have first := (List.pairwise_cons.mp sorted).1
    refine List.pairwise_cons.mpr ⟨fun f mem => ?_, sorted⟩
    rcases List.mem_cons.mp mem with rfl | later
    · exact before
    · exact before.trans (first f later)
  | case3 e es _ after ih =>
    obtain ⟨first, rest⟩ := List.pairwise_cons.mp sorted
    refine List.pairwise_cons.mpr ⟨fun f mem => ?_, ih rest⟩
    rcases mem_put mem with rfl | later
    · exact after
    · exact first f later
  | case4 e es notBefore notAfter =>
    obtain ⟨first, rest⟩ := List.pairwise_cons.mp sorted
    have same : key = e.1 := le_antisymm (not_lt.mp notAfter) (not_lt.mp notBefore)
    exact List.pairwise_cons.mpr ⟨fun f mem => same ▸ first f mem, rest⟩

/-- `kv[key] = d`. -/
def set (kv : MData π) (key : String) (d : CData π) : MData π :=
  ⟨put key d kv.entries, sorted_put kv.sorted⟩

end MData

/-! ## Texts with the data -/

/-- `s[s.size() - 1] = ' '`. -/
def blankLast (s : String) : String := String.ofList (s.toList.dropLast ++ [' '])

/-- `key[0] == '@'`: the datum is an expression. -/
def isRaw (key : String) : Bool := key.toList.head? = some '@'

/-- The column of a key, without the `@`. -/
def column (key : String) : String :=
  if isRaw key then String.ofList key.toList.tail else key

def getInsertSql (kv : MData String) (table : String) : String :=
  if kv.entries.isEmpty ∨ table = "" then ""
  else
    let (keys, values) := kv.entries.foldl (fun (keys, values) (key, d) =>
      (keys ++ "`" ++ column key ++ "`,",
        (if isRaw key then values ++ cstr d.data else values ++ "'" ++ cstr d.data ++ "'") ++ ","))
      ("", "")
    "insert into `" ++ table ++ "`" ++ "(" ++ blankLast keys ++ ")values(" ++ blankLast values ++ ")"

def getUpdateSql (kv : MData String) (table filter : String) : String :=
  if kv.entries.isEmpty ∨ table = "" then ""
  else
    let sql := kv.entries.foldl (fun sql (key, d) => sql ++ "`" ++ key ++ "`='" ++ cstr d.data ++ "',")
      ("update `" ++ table ++ "` set ")
    blankLast sql ++ " " ++ filter

/-- `data` of `CAuthDAO::addUser`. -/
def addUserData (user : CAddUserReq) : MData String :=
  let data : MData String := {}
  let data := data.set "cms_username" (.ofCString user.username)
  let data := data.set "cms_password" (.ofCString user.password)
  data.set "cms_rolename" (.ofCString user.rolename)

/-- The text that `CAuthDAO::addUser` has MySQL execute. -/
def addUserSql (user : CAddUserReq) : String := getInsertSql (addUserData user) "cms_auth"

/-! ## Texts with placeholders -/

section

variable {π τ : Type*}

/-- The members of `MYSQL_BIND` that are set. -/
structure Bind (π : Type*) where
  buffer : π
  buffer_length : UInt64
  buffer_type : CFieldType
  deriving DecidableEq, Repr

def CData.bind (d : CData π) : Bind π where
  buffer := d.data
  buffer_length := d.size.toInt64.toUInt64
  buffer_type := d.type

/-- `MYSQL_BIND bind[256]`; an element is `none` until it is set. -/
abbrev Binds (π : Type*) := Vector (Option (Bind π)) 256

/-- The loop over the map: the text grows by an entry, and `bind[i]` is set before `i` goes up. A
write beyond the array gives `none`. -/
def prepareLoop (grow : τ → String → τ) :
    List (String × CData π) → τ → Binds π → Nat → Option (τ × Binds π)
  | [], text, bind, _ => some (text, bind)
  | (key, d) :: es, text, bind, i =>
    if inside : i < 256 then
      prepareLoop grow es (grow text key) (bind.set i (some d.bind)) (i + 1)
    else none

/-- What comes of a call before the statement is executed. -/
inductive Prepared (π : Type*) where
  | refused
  /-- An index reached the length of the array. -/
  | overrun
  /-- The text and the array are handed to MySQL. -/
  | statement (sql : String) (bind : Binds π)

def insertBin (connected : Bool) (kv : MData π) (table : String) : Prepared π :=
  if kv.entries.isEmpty ∨ table = "" ∨ !connected then .refused
  else
    let grow := fun (keys, values) key => (keys ++ "`" ++ key ++ "`,", values ++ "?,")
    match prepareLoop grow kv.entries ("", "") (.replicate 256 none) 0 with
    | none => .overrun
    | some ((keys, values), bind) =>
      .statement ("insert into `" ++ table ++ "`" ++ "(" ++ blankLast keys ++ ")values(" ++
        blankLast values ++ ")") bind

def updateBin (connected : Bool) (kv : MData π) (table filter : String) : Prepared π :=
  if !connected ∨ kv.entries.isEmpty ∨ table = "" then .refused
  else
    let grow := fun sql key => sql ++ "`" ++ key ++ "`=?,"
    match prepareLoop grow kv.entries ("update `" ++ table ++ "` set ") (.replicate 256 none) 0 with
    | none => .overrun
    | some (sql, bind) => .statement (blankLast sql ++ " " ++ filter) bind

end

end MicroserviceFramework.Mysql
