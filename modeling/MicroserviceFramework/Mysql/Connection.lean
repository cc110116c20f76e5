import MicroserviceFramework.Library.Handles
import MicroserviceFramework.Library.Machine
import MicroserviceFramework.Mysql.CMysql

/-!
# The connection and the result of a `CMysql`

`CMysql` wraps two handles of the MySQL client library, the connection `mysql_` and the result
`result_`, and opens a statement for the length of a call. What the library answers is a parameter:
`answers n` is the answer to the `n`-th of its calls that answers something.

The rows of a result are pointers into it, so a `Cell` carries the handle of its result.
-/

namespace MicroserviceFramework.Mysql

open Library
open Auth (cstr)

/-- A row of a result: the bytes of each column, if it is not NULL, and its type. -/
abbrev Row := List (Option (List UInt8) × CFieldType)

structure Answer where
  /-- The pointer is not null, or the code is 0. -/
  ok : Bool := true
  /-- Rows or an id. -/
  number : UInt64 := 0
  /-- What a result that is opened holds. -/
  rows : List Row := []
  deriving DecidableEq, Repr

/-- A pointer into a result; `none` where the column is NULL. -/
structure Cell where
  result : Nat
  bytes : Option (List UInt8)
  deriving DecidableEq, Repr

abbrev CRows := List (List (CData Cell))

/-- A map without columns. -/
def MData.empty {π : Type*} : MData π := {}

theorem MData.entries_empty {π : Type*} : (empty : MData π).entries = [] := rfl

/-- What a `CData` points to that is bound to a placeholder. -/
inductive Datum where
  | bytes (b : List UInt8)
  | int (n : Int32)
  deriving DecidableEq, Repr

namespace CData

/-- `CData(const char *data)`, for a placeholder. -/
def ofText (s : String) : CData Datum where
  data := .bytes (Wire.Kind.utf8 (cstr s))
  size := Int32.ofNat (cstr s).utf8ByteSize
  type := .CMYSQL_TYPE_STRING

/-- `data` and `size` are set, and the type stays that of a string. -/
def ofBytes (b : List UInt8) : CData Datum where
  data := .bytes b
  size := Int32.ofNat b.length
  type := .CMYSQL_TYPE_STRING

/-- `CData(const int *d)`. -/
def ofInt (n : Int32) : CData Datum where
  data := .int n
  size := 4
  type := .CMYSQL_TYPE_LONG

end CData

/-- The arguments of `mysql_real_connect`. -/
structure Server where
  host : List UInt8
  user : List UInt8
  password : List UInt8
  db : List UInt8
  port : UInt16 := 3306
  flag : UInt64 := 0
  deriving DecidableEq, Repr

structure CMysql where
  mysql_ : Option Nat := none
  result_ : Option Nat := none
  /-- Whether the rows of `result_` have all been received. -/
  stored : Bool := true
  /-- The rows of `result_` that have not been fetched. -/
  rows : List Row := []
  /-- Whom `mysql_` was last asked to connect to, if it was. -/
  server : Option Server := none
  api : Handles := {}
  /-- How often the library has answered. -/
  asked : Nat := 0
  /-- `mysql_stmt_init` has given a null pointer. -/
  unallocated : Bool := false
  deriving DecidableEq, Repr

namespace CMysql

variable (answers : Nat → Answer)

/-- A call of the library with a handle. -/
def call (h : Option Nat) (s : CMysql) : Answer × CMysql :=
  (answers s.asked, { s with api := s.api.use h, asked := s.asked + 1 })

/-- A call whose answer is only printed, or copied as it is. -/
def touch (h : Option Nat) (s : CMysql) : CMysql := { s with api := s.api.use h }

/-! ## Connections and queries -/

def freeResult (s : CMysql) : CMysql :=
  match s.result_ with
  | none => s
  | some r => { s with result_ := none, rows := [], api := s.api.release r }

def close (s : CMysql) : CMysql :=
  let s := s.freeResult
  match s.mysql_ with
  | none => s
  | some c => { s with mysql_ := none, api := s.api.release c }

def init (s : CMysql) : Bool × CMysql :=
  let s := s.close
  let s' := { s with server := none, asked := s.asked + 1 }
  -- `mysql_init` takes no handle
  if (answers s.asked).ok then
    (true, { s' with mysql_ := some s.api.next, api := s.api.acquire none })
  else (false, s')

/-- `!mysql_ && !init()` fails. -/
def ensureInit (s : CMysql) : Bool × CMysql :=
  if s.mysql_.isSome then (true, s) else s.init answers

def connect (peer : Server) (s : CMysql) : Bool × CMysql :=
  match s.ensureInit answers with
  | (false, s) => (false, s)
  | (true, s) =>
    let (reply, s) := s.call answers s.mysql_
    if reply.ok then (true, { s with server := some peer })
    else (false, { s with server := some peer }.touch s.mysql_)

/-- `query(sql, sqlLen)`; a length of 0 stands for that of the C string. -/
def query (sql : Option String) (sqlLen : Nat) (s : CMysql) : Bool × CMysql :=
  match s.mysql_, sql with
  | none, _ | _, none => (false, s)
  | some _, some sql =>
    if (if sqlLen = 0 then (cstr sql).utf8ByteSize else sqlLen) = 0 then (false, s)
    else
      let (reply, s) := s.call answers s.mysql_
      if reply.ok then (true, s) else (false, s.touch s.mysql_)

def option (s : CMysql) : Bool × CMysql :=
  if s.mysql_.isNone then (false, s)
  else
    let (reply, s) := s.call answers s.mysql_
    if reply.ok then (true, s) else (false, s.touch s.mysql_)

def setConnectTimeout (s : CMysql) : Bool × CMysql := s.option answers
def setReconnect (s : CMysql) : Bool × CMysql := s.option answers

def startTransaction (s : CMysql) : Bool × CMysql := s.query answers (some "set autocommit=0") 0
def stopTransaction (s : CMysql) : Bool × CMysql := s.query answers (some "set autocommit=1") 0
def commit (s : CMysql) : Bool × CMysql := s.query answers (some "commit") 0
def rollback (s : CMysql) : Bool × CMysql := s.query answers (some "rollback") 0

/-- A number of the library as an `int`. -/
def int (n : UInt64) : Int32 := n.toUInt32.toInt32

def getInsertId (s : CMysql) : Int32 × CMysql :=
  if s.mysql_.isNone then (0, s)
  else
    let (reply, s) := s.call answers s.mysql_
    (int reply.number, s)

/-! ## Results -/

/-- `mysql_store_result` and `mysql_use_result` differ in when the rows are received. -/
def openResult (stored : Bool) (s : CMysql) : Bool × CMysql :=
  if s.mysql_.isNone then (false, s)
  else
    let (reply, s) := s.freeResult.call answers s.mysql_
    if reply.ok then
      (true, { s with
        result_ := some s.api.next, stored := stored, rows := reply.rows
        api := s.api.acquire s.mysql_ })
    else (false, s.touch s.mysql_)

def storeResult (s : CMysql) : Bool × CMysql := s.openResult answers true
def useResult (s : CMysql) : Bool × CMysql := s.openResult answers false

/-- `row[i]` and `lens[i]`. -/
def cell (r : Nat) (column : Option (List UInt8) × CFieldType) : CData Cell where
  data := ⟨r, column.1⟩
  size := Int32.ofNat (column.1.getD []).length
  type := column.2

def fetchRow (s : CMysql) : List (CData Cell) × CMysql :=
  match s.result_ with
  | none => ([], s)
  | some r =>
    let (reply, s) := s.call answers s.result_
    match if s.stored || reply.ok then s.rows else [] with
    | [] => ([], s)
    | row :: rows => (row.map (cell r), { s with rows := rows }.touch s.result_)

/-- The loop of `getResult`, for as many rounds as there can be. -/
def fetchRows : Nat → CMysql → CRows × CMysql
  | 0, s => ([], s)
  | n + 1, s =>
    match s.fetchRow answers with
    | ([], s) => ([], s)
    | (row, s) => (row :: (fetchRows n s).1, (fetchRows n s).2)

def getResult (sql : Option String) (s : CMysql) : CRows × CMysql :=
  match s.freeResult.query answers sql 0 with
  | (false, s) => ([], s)
  | (true, s) =>
    match s.storeResult answers with
    | (false, s) => ([], s)
    | (true, s) => s.fetchRows answers (s.rows.length + 1)

/-! ## Inserts and updates -/

def insert (kv : MData String) (table : String) (s : CMysql) : Bool × CMysql :=
  if s.mysql_.isNone ∨ getInsertSql kv table = "" then (false, s)
  else
    match s.query answers (some (getInsertSql kv table)) 0 with
    | (false, s) => (false, s)
    | (true, s) =>
      let (reply, s) := s.call answers s.mysql_
      (decide (0 < int reply.number), s)

def update (kv : MData String) (table filter : String) (s : CMysql) : Int32 × CMysql :=
  if s.mysql_.isNone ∨ getUpdateSql kv table filter = "" then (-1, s)
  else
    match s.query answers (some (getUpdateSql kv table filter)) 0 with
    | (false, s) => (-1, s)
    | (true, s) =>
      let (reply, s) := s.call answers s.mysql_
      (int reply.number, s)

/-- So many calls with a statement, each with `mysql_stmt_error` after it if it fails. -/
def statementCalls (stmt : Nat) : Nat → CMysql → Bool × CMysql
  | 0, s => (true, s)
  | n + 1, s =>
    let (reply, s) := s.call answers (some stmt)
    if reply.ok then statementCalls stmt n s else (false, s.touch (some stmt))

/-- From `mysql_stmt_init` to `mysql_stmt_close`, with the number of rows in between if it is
wanted. When there is no statement, `mysql_stmt_error` is given the null pointer. -/
def runStatement (wanted : Bool) (s : CMysql) : Option Int32 × CMysql :=
  let (reply, s) := s.call answers s.mysql_
  if !reply.ok then (none, { s with unallocated := true }.touch none)
  else
    let stmt := s.api.next
    -- prepare, bind and execute
    match { s with api := s.api.acquire s.mysql_ }.statementCalls answers stmt 3 with
    | (false, s) => (none, { s with api := s.api.release stmt })
    | (true, s) =>
      let (rows, s) :=
        if wanted then (int (s.call answers (some stmt)).1.number, (s.call answers (some stmt)).2)
        else (0, s)
      (some rows, { s with api := s.api.release stmt })

/-- `none` where the array of bindings is overrun. -/
def insertBin (kv : MData Datum) (table : String) (s : CMysql) : Option (Bool × CMysql) :=
  match Mysql.insertBin s.mysql_.isSome kv table with
  | .refused => some (false, s)
  | .overrun => none
  | .statement _ _ =>
    let (rows, s) := s.runStatement answers false
    some (rows.isSome, s)

/-- `none` where the array of bindings is overrun. -/
def updateBin (kv : MData Datum) (table filter : String) (s : CMysql) : Option (Int32 × CMysql) :=
  match Mysql.updateBin s.mysql_.isSome kv table filter with
  | .refused => some (-1, s)
  | .overrun => none
  | .statement _ _ =>
    let (rows, s) := s.runStatement answers true
    some (rows.getD (-1), s)

/-! ## Calls one after the other -/

inductive Call where
  | init | close | connect (peer : Server)
  | query (sql : Option String) (sqlLen : Nat)
  | setConnectTimeout | setReconnect
  | startTransaction | stopTransaction | commit | rollback
  | getInsertId
  | storeResult | useResult | freeResult | fetchRow
  | getResult (sql : Option String)
  | insert (kv : MData String) (table : String)
  | update (kv : MData String) (table filter : String)
  | insertBin (kv : MData Datum) (table : String)
  | updateBin (kv : MData Datum) (table filter : String)

def step (s : CMysql) : Call → Option CMysql
  | .init => some (s.init answers).2
  | .close => some s.close
  | .connect peer => some (s.connect answers peer).2
  | .query sql sqlLen => some (s.query answers sql sqlLen).2
  | .setConnectTimeout => some (s.setConnectTimeout answers).2
  | .setReconnect => some (s.setReconnect answers).2
  | .startTransaction => some (s.startTransaction answers).2
  | .stopTransaction => some (s.stopTransaction answers).2
  | .commit => some (s.commit answers).2
  | .rollback => some (s.rollback answers).2
  | .getInsertId => some (s.getInsertId answers).2
  | .storeResult => some (s.storeResult answers).2
  | .useResult => some (s.useResult answers).2
  | .freeResult => some s.freeResult
  | .fetchRow => some (s.fetchRow answers).2
  | .getResult sql => some (s.getResult answers sql).2
  | .insert kv table => some (s.insert answers kv table).2
  | .update kv table filter => some (s.update answers kv table filter).2
  | .insertBin kv table => (s.insertBin answers kv table).map (·.2)
  | .updateBin kv table filter => (s.updateBin answers kv table filter).map (·.2)

def machine : Machine CMysql Call := ⟨step answers⟩

end CMysql

end MicroserviceFramework.Mysql
