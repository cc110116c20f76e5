import MicroserviceFramework.Auth.LoginQuery
import MicroserviceFramework.Mysql.SqlTexts

/-!
# Statements with the data in the text

`getInsertSql` and `getUpdateSql` put names between backticks and data between single quotes as
they are. The statement is read as it was meant exactly if no name has a backtick and each datum
stands for itself between quotes.
-/

namespace MicroserviceFramework.Mysql

open Library Library.Sql
open Auth (cstr cstr_eq_self CAddUserReq Plain)

/-- The C string of an entry. -/
def datum (e : String × CData String) : List Char := (cstr e.2.data).toList

/-- The value of an entry in the text of an INSERT. -/
def valueText (e : String × CData String) : List Char :=
  if isRaw e.1 then datum e else quote :: (datum e ++ [quote])

/-- What the value should be: the literal of the datum, or the expression for a key with `@`. -/
def valueTokens (e : String × CData String) : Option (List Token) :=
  if isRaw e.1 then expression (datum e) else some [.str (datum e)]

/-- The INSERT that MySQL reads in a text. -/
def readInsert (sql : String) : Option Insert := (lex sql.toList).bind Insert.read

/-- The text is one INSERT into the table, with the columns in the order of the keys, and the value
of each is that of its entry. -/
def InsertsAsGiven (kv : MData String) (table : String) : Prop :=
  ∃ values, readInsert (getInsertSql kv table) =
      some ⟨table.toList, kv.entries.map fun e => (column e.1).toList, values⟩ ∧
    List.Forall₂ (fun e value => valueTokens e = some value) kv.entries values

/-- The datum can stand in the text: as an expression, or between quotes. -/
def Fits (e : String × CData String) : Prop :=
  if isRaw e.1 then (expression (datum e)).isSome = true else Verbatim quote (datum e)

instance (e : String × CData String) : Decidable (Fits e) :=
  inferInstanceAs (Decidable (if isRaw e.1 then (expression (datum e)).isSome = true
    else Verbatim quote (datum e)))

def Insertable (kv : MData String) (table : String) : Prop :=
  table ≠ "" ∧ backtick ∉ table.toList ∧
    ∀ e ∈ kv.entries, backtick ∉ (column e.1).toList ∧ Fits e

instance (kv : MData String) (table : String) : Decidable (Insertable kv table) :=
  inferInstanceAs (Decidable (_ ∧ _ ∧ _))

/-- The text is one UPDATE of the table that sets each key to the literal of its datum, up to where
the condition begins, between two tokens. -/
def UpdatesAsGiven (kv : MData String) (table filter : String) : Prop :=
  ∃ text, (getUpdateSql kv table filter).toList = text ++ filter.toList ∧
    ReadsAs text (Update.tokens ⟨table.toList, kv.entries.map fun e =>
      (e.1.toList, [.str (datum e)])⟩)

def Updatable (kv : MData String) (table : String) : Prop :=
  table ≠ "" ∧ backtick ∉ table.toList ∧
    ∀ e ∈ kv.entries, backtick ∉ e.1.toList ∧ Verbatim quote (datum e)

/-- The text stores what came in the request. -/
def AddsAsGiven (user : CAddUserReq) : Prop :=
  readInsert (addUserSql user) = some {
    table := "cms_auth".toList
    columns := ["cms_password".toList, "cms_rolename".toList, "cms_username".toList]
    values := [[.str user.password.toList], [.str user.rolename.toList], [.str user.username.toList]] }

/-! ## The texts -/

section

variable {kv : MData String} {table : String}

theorem toList_getInsertSql (nonempty : kv.entries ≠ []) (named : table ≠ "") :
    (getInsertSql kv table).toList =
      insertText table (kv.entries.map fun e => nameText (column e.1)) (kv.entries.map valueText) := by
  let keys := fun (s : String) (e : String × CData String) => s ++ "`" ++ column e.1 ++ "`,"
  let values := fun (s : String) (e : String × CData String) =>
    (if isRaw e.1 then s ++ cstr e.2.data else s ++ "'" ++ cstr e.2.data ++ "'") ++ ","
  have keysGrow (s : String) (e : String × CData String) :
      (keys s e).toList = s.toList ++ (nameText (column e.1) ++ [',']) := by
    simp [keys, nameText, backtick]
  have valuesGrow (s : String) (e : String × CData String) :
      (values s e).toList = s.toList ++ (valueText e ++ [',']) := by
    by_cases raw : isRaw e.1
    · simp [values, valueText, datum, raw]
    · simp [values, valueText, datum, raw, quote]
  have text : getInsertSql kv table = "insert into `" ++ table ++ "`" ++ "(" ++
      blankLast (kv.entries.foldl keys "") ++ ")values(" ++
        blankLast (kv.entries.foldl values "") ++ ")" := by
    have loop := foldl_pair keys values "" "" kv.entries
    simp only [keys, values] at loop
    simp only [getInsertSql, nonempty, named, List.isEmpty_iff, or_self, if_false, loop, keys, values]
  simp only [text, String.toList_append, toList_blankLast_foldl keysGrow "" nonempty,
    toList_blankLast_foldl valuesGrow "" nonempty]
  unfold insertText
  simp [nameText, backtick]

theorem toList_getUpdateSql (nonempty : kv.entries ≠ []) (named : table ≠ "") (filter : String) :
    (getUpdateSql kv table filter).toList =
      updateText table (kv.entries.map fun e => nameText e.1 ++ '=' :: quote ::
        (datum e ++ [quote])) ++ filter.toList := by
  let sets := fun (s : String) (e : String × CData String) =>
    s ++ "`" ++ e.1 ++ "`='" ++ cstr e.2.data ++ "',"
  have setsGrow (s : String) (e : String × CData String) :
      (sets s e).toList =
        s.toList ++ ((nameText e.1 ++ '=' :: quote :: (datum e ++ [quote])) ++ [',']) := by
    simp [sets, nameText, backtick, quote, datum]
  have text : getUpdateSql kv table filter =
      blankLast (kv.entries.foldl sets ("update `" ++ table ++ "` set ")) ++ " " ++ filter := by
    simp only [getUpdateSql, nonempty, named, List.isEmpty_iff, or_self, if_false, sets]
  simp only [text, String.toList_append, toList_blankLast_foldl setsGrow _ nonempty]
  unfold updateText
  simp [nameText, backtick]

end

theorem isExpr_str (s : List Char) : IsExpr [.str s] :=
  ⟨List.cons_ne_nil _ _, by simp [nest, deeper]⟩

theorem valueTokens_isExpr {e : String × CData String} {value : List Token}
    (means : valueTokens e = some value) : IsExpr value := by
  unfold valueTokens at means
  split at means
  · exact expression_isExpr means
  · exact Option.some.inj means ▸ isExpr_str _

/-- A value stands for its tokens, provided that an expression is one. -/
theorem stands_valueText {e : String × CData String} {value : List Token}
    (means : valueTokens e = some value) :
    Stands (valueText e) value (isRaw e.1 ∨ Verbatim quote (datum e)) := by
  unfold valueTokens at means
  unfold valueText
  split at means
  next raw =>
    have same : True ↔ isRaw e.1 ∨ Verbatim quote (datum e) := by simp [raw]
    rw [if_pos raw]
    exact (stands_expression means).congr same
  next quoted =>
    have same : Verbatim quote (datum e) ↔ isRaw e.1 ∨ Verbatim quote (datum e) := by simp [quoted]
    obtain rfl := Option.some.inj means
    rw [if_neg quoted]
    exact (stands_str (datum e)).congr same

theorem forall₂_eq_some {α β : Type*} {f : α → Option β} {l : List α} {values : List β}
    (default : β) : List.Forall₂ (fun a b => f a = some b) l values ↔
      values = l.map (fun a => (f a).getD default) ∧ ∀ a ∈ l, (f a).isSome := by
  induction l generalizing values with
  | nil => simp
  | cons a l ih =>
    constructor
    · rintro (_ | ⟨here, later⟩)
      obtain ⟨rfl, all⟩ := ih.mp later
      exact ⟨by simp [here], List.forall_mem_cons.mpr ⟨by simp [here], all⟩⟩
    · rintro ⟨rfl, all⟩
      obtain ⟨here, later⟩ := List.forall_mem_cons.mp all
      obtain ⟨b, found⟩ := Option.isSome_iff_exists.mp here
      exact .cons (by simp [found]) (ih.mpr ⟨rfl, later⟩)

theorem readInsert_eq_some {sql : String} {i : Insert} :
    readInsert sql = some i ↔ lex sql.toList = some i.tokens ∧ i.Proper := by
  rw [readInsert, Option.bind_eq_some_iff]
  constructor
  · rintro ⟨ts, lexed, read⟩
    obtain ⟨rfl, proper⟩ := Insert.read_eq_some.mp read
    exact ⟨lexed, proper⟩
  · rintro ⟨lexed, proper⟩
    exact ⟨i.tokens, lexed, Insert.read_eq_some.mpr ⟨rfl, proper⟩⟩

section

variable {kv : MData String} {table : String}

theorem fits_iff (e : String × CData String) :
    Fits e ↔ (valueTokens e).isSome ∧ (isRaw e.1 ∨ Verbatim quote (datum e)) := by
  unfold Fits valueTokens
  split <;> simp_all

theorem insertsAsGiven_iff (nonempty : kv.entries ≠ []) :
    InsertsAsGiven kv table ↔ Insertable kv table := by
  by_cases named : table = ""
  · subst named
    constructor
    · rintro ⟨values, read, -⟩
      have empty : getInsertSql kv "" = "" := by simp [getInsertSql]
      rw [empty] at read
      cases read
    · rintro ⟨other, -⟩
      exact absurd rfl other
  let tokens := fun e => (valueTokens e).getD []
  have stands (all : ∀ e ∈ kv.entries, (valueTokens e).isSome) :
      ∀ e ∈ kv.entries, Stands (valueText e) (tokens e) (isRaw e.1 ∨ Verbatim quote (datum e)) := by
    intro e mem
    obtain ⟨value, means⟩ := Option.isSome_iff_exists.mp (all e mem)
    simpa [tokens, means] using stands_valueText means
  constructor
  · rintro ⟨values, read, means⟩
    obtain ⟨rfl, all⟩ := (forall₂_eq_some []).mp means
    obtain ⟨lexed, -⟩ := readInsert_eq_some.mp read
    rw [toList_getInsertSql nonempty named] at lexed
    obtain ⟨free, frees, fine⟩ := (lex_insertText nonempty (stands all)).mp lexed
    exact ⟨named, free, fun e mem =>
      ⟨frees e mem, (fits_iff e).mpr ⟨all e mem, fine e mem⟩⟩⟩
  · rintro ⟨-, free, each⟩
    have both := fun e mem => (fits_iff e).mp (each e mem).2
    have all : ∀ e ∈ kv.entries, (valueTokens e).isSome := fun e mem => (both e mem).1
    refine ⟨kv.entries.map tokens, ?_, (forall₂_eq_some []).mpr ⟨rfl, all⟩⟩
    refine readInsert_eq_some.mpr ⟨?_, by simpa using nonempty, by simpa using nonempty, ?_⟩
    · rw [toList_getInsertSql nonempty named]
      exact (lex_insertText nonempty (stands all)).mpr
        ⟨free, fun e mem => (each e mem).1, fun e mem => (both e mem).2⟩
    · intro value listed
      obtain ⟨e, mem, rfl⟩ := List.mem_map.mp listed
      obtain ⟨value, means⟩ := Option.isSome_iff_exists.mp (all e mem)
      simpa [tokens, means] using valueTokens_isExpr means

theorem updatesAsGiven_iff (nonempty : kv.entries ≠ []) (filter : String) :
    UpdatesAsGiven kv table filter ↔ Updatable kv table := by
  by_cases named : table = ""
  · subst named
    constructor
    · rintro ⟨text, split, reads⟩
      have empty : getUpdateSql kv "" filter = "" := by simp [getUpdateSql]
      rw [empty] at split
      obtain ⟨rfl, -⟩ := List.append_eq_nil_iff.mp split.symm
      cases reads
    · rintro ⟨other, -⟩
      exact absurd rfl other
  have reads_iff : ReadsAs (updateText table _) (Update.tokens ⟨table.toList, _⟩) ↔
      backtick ∉ table.toList ∧
        ∀ e ∈ kv.entries, backtick ∉ e.1.toList ∧ Verbatim quote (datum e) :=
    readsAs_updateText nonempty fun e _ => stands_str (datum e)
  rw [UpdatesAsGiven, toList_getUpdateSql nonempty named, Updatable, and_iff_right named]
  constructor
  · rintro ⟨text, split, reads⟩
    obtain rfl := List.append_cancel_right split
    exact reads_iff.mp reads
  · intro fine
    exact ⟨_, rfl, reads_iff.mpr fine⟩

end

/-! ## Adding a user -/

/-- What C strings leave out begins with a NUL. -/
theorem toList_eq_cstr {s : String} (nul : Char.ofNat 0 ∈ s.toList) :
    ∃ rest, s.toList = (cstr s).toList ++ Char.ofNat 0 :: rest := by
  let keeps := fun c : Char => decide (c ≠ Char.ofNat 0)
  have split := List.takeWhile_append_dropWhile (p := keeps) (l := s.toList)
  cases tail : s.toList.dropWhile keeps with
  | nil =>
    have all := List.dropWhile_eq_nil_iff.mp tail _ nul
    simp [keeps] at all
  | cons c rest =>
    have stops := List.head?_dropWhile_not keeps s.toList
    rw [tail] at stops split
    have zero : c = Char.ofNat 0 := by simpa [keeps] using stops
    subst zero
    refine ⟨rest, ?_⟩
    rw [cstr, String.toList_ofList]
    exact split.symm

/-- A C string in quotes stands for the whole string if and only if that is plain. -/
theorem stands_cstr (s : String) :
    Stands (quote :: ((cstr s).toList ++ [quote])) [.str s.toList] (Plain s) := by
  by_cases nul : Char.ofNat 0 ∈ s.toList
  · obtain ⟨rest, whole⟩ := toList_eq_cstr nul
    refine ⟨fun plain => absurd nul plain.1, fun c later more separates read => ?_⟩
    obtain ⟨-, -, -, notQuoting, -⟩ := separates.start
    have differ : Char.ofNat 0 ≠ c := by rintro rfl; exact absurd separates (by decide)
    have opens : lex (quote :: ((cstr s).toList ++ [quote]) ++ c :: later) =
        lexFrom (.str quote []) ((cstr s).toList ++ quote :: c :: later) := by
      rw [lex, List.cons_append, lexFrom_silent rfl, List.append_assoc]
      rfl
    rw [opens, whole] at read
    exact absurd read (lexFrom_str_ne notQuoting (by decide) (by decide) differ)
  · rw [cstr_eq_self nul]
    exact (stands_str s.toList).congr (by simp [Plain, nul])

/-- The columns of `cms_auth` that a request fills, in the order of their names. -/
def userColumns (user : CAddUserReq) : List (String × String) :=
  [("cms_password", user.password), ("cms_rolename", user.rolename),
    ("cms_username", user.username)]

theorem entries_addUserData (user : CAddUserReq) :
    (addUserData user).entries = (userColumns user).map fun c => (c.1, .ofCString c.2) := by
  have first : "cms_password" < "cms_username" := by decide
  have second : ¬"cms_rolename" < "cms_password" := by decide
  have third : "cms_password" < "cms_rolename" := by decide
  have fourth : "cms_rolename" < "cms_username" := by decide
  simp only [addUserData, MData.set, MData.put, first, second, third, fourth, if_true, if_false,
    userColumns, List.map_cons, List.map_nil]

theorem isRaw_userColumns {user : CAddUserReq} {c : String × String} (mem : c ∈ userColumns user) :
    isRaw c.1 = false := by
  have quoted : ∀ key ∈ ["cms_password", "cms_rolename", "cms_username"], isRaw key = false := by
    decide
  exact quoted c.1 (List.mem_map_of_mem (f := Prod.fst) mem)

theorem toList_addUserSql (user : CAddUserReq) :
    (addUserSql user).toList =
      insertText "cms_auth" ((userColumns user).map fun c => nameText c.1)
        ((userColumns user).map fun c => quote :: ((cstr c.2).toList ++ [quote])) := by
  have nonempty : (addUserData user).entries ≠ [] := by simp [entries_addUserData, userColumns]
  rw [addUserSql, toList_getInsertSql nonempty (by decide), entries_addUserData, List.map_map,
    List.map_map]
  congr 1
  · refine List.map_congr_left fun c mem => ?_
    simp [column, isRaw_userColumns mem]
  · refine List.map_congr_left fun c mem => ?_
    simp [valueText, isRaw_userColumns mem, datum, CData.ofCString]

theorem addsAsGiven_iff (user : CAddUserReq) :
    AddsAsGiven user ↔ Plain user.username ∧ Plain user.password ∧ Plain user.rolename := by
  have named : backtick ∉ "cms_auth".toList ∧ ∀ c ∈ userColumns user, backtick ∉ c.1.toList := by
    simp only [userColumns, List.forall_mem_cons]
    decide
  have lexed : lex (insertText "cms_auth" ((userColumns user).map fun c => nameText c.1)
        ((userColumns user).map fun c => quote :: ((cstr c.2).toList ++ [quote]))) =
      some (Insert.tokens ⟨"cms_auth".toList, (userColumns user).map fun c => c.1.toList,
        (userColumns user).map fun c => [.str c.2.toList]⟩) ↔ _ :=
    lex_insertText (List.cons_ne_nil _ _) fun c _ => stands_cstr c.2
  have proper : Insert.Proper ⟨"cms_auth".toList, (userColumns user).map fun c => c.1.toList,
      (userColumns user).map fun c => [.str c.2.toList]⟩ := by
    refine ⟨List.cons_ne_nil _ _, List.cons_ne_nil _ _, fun value listed => ?_⟩
    obtain ⟨c, -, rfl⟩ := List.mem_map.mp listed
    exact isExpr_str _
  have plain : (∀ c ∈ userColumns user, Plain c.2) ↔
      Plain user.username ∧ Plain user.password ∧ Plain user.rolename := by
    simp only [userColumns, List.forall_mem_cons]
    exact ⟨fun ⟨p, r, u, _⟩ => ⟨u, p, r⟩, fun ⟨u, p, r⟩ => ⟨p, r, u, by simp⟩⟩
  have read : readInsert (addUserSql user) = some ⟨"cms_auth".toList,
      (userColumns user).map fun c => c.1.toList,
      (userColumns user).map fun c => [.str c.2.toList]⟩ ↔ _ := readInsert_eq_some
  rw [toList_addUserSql, lexed, and_iff_left proper, and_iff_right named.1,
    and_iff_right named.2, plain] at read
  exact read

/-- The texts mean the given data exactly if the table has a name, names have no backtick, and each
datum can stand in the text: with `@` as one expression, else with no quote, and with `%` or `_`
after every backslash. What a request adds has no NUL either. -/
theorem generatedSql_iff (kv : MData String) (nonempty : kv.entries ≠ []) (table filter : String)
    (user : CAddUserReq) :
    (InsertsAsGiven kv table ↔ Insertable kv table) ∧
    (UpdatesAsGiven kv table filter ↔ Updatable kv table) ∧
    (AddsAsGiven user ↔ Plain user.username ∧ Plain user.password ∧ Plain user.rolename) :=
  ⟨insertsAsGiven_iff nonempty, updatesAsGiven_iff nonempty filter, addsAsGiven_iff user⟩

/-- The row of a token: its value is a call, its user a string. -/
theorem generatedSql_token :
    InsertsAsGiven
      (({} : MData String).set "cms_username" (.ofCString "o_brien") |>.set "@token"
        (.ofCString "UUID()")) "cms_token" :=
  (generatedSql_iff _ (by decide) "cms_token" "" {}).1.mpr (by decide +kernel)

/-- A password that closes its literal chooses the role and the name that are stored. -/
theorem addUserSql_injected :
    readInsert (addUserSql ⟨"guest", "x','admin','root')#", "user"⟩) = some {
      table := "cms_auth".toList
      columns := ["cms_password".toList, "cms_rolename".toList, "cms_username".toList]
      values := [[.str "x".toList], [.str "admin".toList], [.str "root".toList]] } ∧
    ¬AddsAsGiven ⟨"guest", "x','admin','root')#", "user"⟩ := by
  unfold AddsAsGiven
  decide +kernel

end MicroserviceFramework.Mysql
