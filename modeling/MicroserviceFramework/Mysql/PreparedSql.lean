import MicroserviceFramework.Mysql.SqlTexts

/-!
# Statements with placeholders

`insertBin` and `updateBin` write a placeholder into the text and a binding into the array in the
same round of their loop, so the two agree as far as the array goes. It has 256 elements, and the
map may have any number of entries.
-/

namespace MicroserviceFramework.Mysql

open Library Library.Sql

variable {π τ : Type*}

def placeholder : Token := .sym '?'

/-- `bind[i]` has what the `i`-th entry has. -/
def Bound (es : List (String × CData π)) (bind : Binds π) : Prop :=
  ∀ (i : Nat) (e : String × CData π), es[i]? = some e → bind[i]? = some (some e.2.bind)

/-- One INSERT of a placeholder for each key in the order of the map, no other placeholder, and the
bindings in the same order. -/
def InsertMatches (kv : MData π) (table : String) : Prepared π → Prop
  | .statement sql bind =>
    ∃ ts, lex sql.toList = some ts ∧
      Insert.read ts = some ⟨table.toList, kv.entries.map (·.1.toList),
        kv.entries.map fun _ => [placeholder]⟩ ∧
      ts.count placeholder = kv.entries.length ∧ Bound kv.entries bind
  | _ => False

/-- One UPDATE that sets each key to a placeholder, and then the condition, which adds none. -/
def UpdateMatches (kv : MData π) (table filter : String) : Prepared π → Prop
  | .statement sql bind =>
    ∃ text, sql.toList = text ++ filter.toList ∧
      ReadsAs text (Update.tokens ⟨table.toList, kv.entries.map fun e =>
        (e.1.toList, [placeholder])⟩) ∧
      (transduce step .code sql.toList).1.count placeholder = kv.entries.length ∧
      Bound kv.entries bind
  | _ => False

/-- The array is long enough, and the names have no backtick. -/
def Bindable (kv : MData π) (table : String) : Prop :=
  kv.entries.length ≤ 256 ∧ backtick ∉ table.toList ∧ ∀ e ∈ kv.entries, backtick ∉ e.1.toList

instance (kv : MData π) (table : String) : Decidable (Bindable kv table) :=
  inferInstanceAs (Decidable (_ ∧ _ ∧ _))

/-- How many placeholders a condition has outside strings, names and comments. -/
def placeholders (filter : String) : Nat :=
  (transduce step .code filter.toList).1.count placeholder

/-! ## The loop -/

/-- The text grows with every entry, `bind[i + j]` gets the `j`-th, and what is before `i` stays. -/
theorem prepareLoop_some (grow : τ → String → τ) (es : List (String × CData π)) (text : τ)
    (bind : Binds π) (i : Nat) (fits : i + es.length ≤ 256) :
    ∃ bind', prepareLoop grow es text bind i =
        some (es.foldl (fun text e => grow text e.1) text, bind') ∧
      (∀ j < i, bind'[j]? = bind[j]?) ∧
      ∀ (j : Nat) (e : String × CData π), es[j]? = some e → bind'[i + j]? = some (some e.2.bind) := by
  induction es generalizing text bind i with
  | nil => exact ⟨bind, rfl, fun _ _ => rfl, by simp⟩
  | cons e es ih =>
    rw [List.length_cons] at fits
    have inside : i < 256 := by omega
    obtain ⟨bind', loop, before, later⟩ :=
      ih (grow text e.1) (bind.set i (some e.2.bind)) (i + 1) (by omega)
    refine ⟨bind', by rw [prepareLoop, dif_pos inside, loop, List.foldl_cons], ?_, ?_⟩
    · intro j lt
      rw [before j (by omega), Vector.getElem?_set_ne inside (by omega)]
    · intro j f found
      cases j with
      | zero =>
        obtain rfl : e = f := by simpa using found
        rw [Nat.add_zero, before i (by omega), Vector.getElem?_set_self inside]
      | succ j =>
        have next := later j f (by simpa using found)
        rwa [show i + (j + 1) = i + 1 + j by omega]

theorem prepareLoop_none (grow : τ → String → τ) (es : List (String × CData π)) (text : τ)
    (bind : Binds π) (i : Nat) (start : i ≤ 256) (long : 256 < i + es.length) :
    prepareLoop grow es text bind i = none := by
  induction es generalizing text bind i with
  | nil =>
    rw [List.length_nil] at long
    omega
  | cons e es ih =>
    rw [List.length_cons] at long
    rw [prepareLoop]
    split
    next inside => exact ih _ _ _ (by omega) (by omega)
    · rfl

/-- From the start of the array. -/
theorem prepareLoop_bound (grow : τ → String → τ) (es : List (String × CData π)) (text : τ)
    (fits : es.length ≤ 256) :
    ∃ bind, prepareLoop grow es text (.replicate 256 none) 0 =
        some (es.foldl (fun text e => grow text e.1) text, bind) ∧ Bound es bind := by
  obtain ⟨bind, loop, -, bound⟩ := prepareLoop_some grow es text (.replicate 256 none) 0 (by omega)
  exact ⟨bind, loop, fun i e found => Nat.zero_add i ▸ bound i e found⟩

/-! ## The statements -/

section

variable {kv : MData π} {table : String}

theorem stands_placeholder : Stands ['?'] [placeholder] True :=
  ReadsAs.stands rfl

theorem insertBin_of_long (nonempty : kv.entries ≠ []) (named : table ≠ "")
    (long : 256 < kv.entries.length) : insertBin true kv table = .overrun := by
  simp only [insertBin, nonempty, named, List.isEmpty_iff, Bool.not_true, Bool.false_eq_true,
    or_self, if_false]
  rw [prepareLoop_none _ _ _ _ 0 (by omega) (by omega)]

theorem updateBin_of_long (nonempty : kv.entries ≠ []) (named : table ≠ "")
    (long : 256 < kv.entries.length) (filter : String) :
    updateBin true kv table filter = .overrun := by
  simp only [updateBin, nonempty, named, List.isEmpty_iff, Bool.not_true, Bool.false_eq_true,
    or_self, if_false]
  rw [prepareLoop_none _ _ _ _ 0 (by omega) (by omega)]

/-- The text of an INSERT that fits, and its bindings. -/
theorem insertBin_of_fits (nonempty : kv.entries ≠ []) (named : table ≠ "")
    (fits : kv.entries.length ≤ 256) :
    ∃ sql bind, insertBin true kv table = .statement sql bind ∧ Bound kv.entries bind ∧
      sql.toList = insertText table (kv.entries.map fun e => nameText e.1)
        (kv.entries.map fun _ => ['?']) := by
  let keys := fun (s : String) (e : String × CData π) => s ++ "`" ++ e.1 ++ "`,"
  let values := fun (s : String) (_ : String × CData π) => s ++ "?,"
  have keysGrow (s : String) (e : String × CData π) :
      (keys s e).toList = s.toList ++ (nameText e.1 ++ [',']) := by
    simp [keys, nameText, backtick]
  have valuesGrow (s : String) (e : String × CData π) :
      (values s e).toList = s.toList ++ (['?'] ++ [',']) := by
    simp [values]
  have loop := foldl_pair keys values "" "" kv.entries
  simp only [keys, values] at loop
  obtain ⟨bind, prepared, bound⟩ := prepareLoop_bound
    (fun (p : String × String) key => (p.1 ++ "`" ++ key ++ "`,", p.2 ++ "?,")) kv.entries
    ("", "") fits
  rw [loop] at prepared
  refine ⟨"insert into `" ++ table ++ "`" ++ "(" ++ blankLast (kv.entries.foldl keys "") ++
    ")values(" ++ blankLast (kv.entries.foldl values "") ++ ")", bind, ?_, bound, ?_⟩
  · simp only [insertBin, nonempty, named, List.isEmpty_iff, Bool.not_true, Bool.false_eq_true,
      or_self, if_false, prepared, keys, values]
  · simp only [String.toList_append, toList_blankLast_foldl keysGrow "" nonempty,
      toList_blankLast_foldl valuesGrow "" nonempty]
    unfold insertText
    simp [nameText, backtick]

theorem updateBin_of_fits (nonempty : kv.entries ≠ []) (named : table ≠ "")
    (fits : kv.entries.length ≤ 256) (filter : String) :
    ∃ sql bind, updateBin true kv table filter = .statement sql bind ∧ Bound kv.entries bind ∧
      sql.toList = updateText table (kv.entries.map fun e => nameText e.1 ++ '=' :: ['?']) ++
        filter.toList := by
  let sets := fun (s : String) (e : String × CData π) => s ++ "`" ++ e.1 ++ "`=?,"
  have setsGrow (s : String) (e : String × CData π) :
      (sets s e).toList = s.toList ++ ((nameText e.1 ++ '=' :: ['?']) ++ [',']) := by
    simp [sets, nameText, backtick]
  obtain ⟨bind, prepared, bound⟩ := prepareLoop_bound
    (fun (sql : String) key => sql ++ "`" ++ key ++ "`=?,") kv.entries
    ("update `" ++ table ++ "` set ") fits
  refine ⟨blankLast (kv.entries.foldl sets ("update `" ++ table ++ "` set ")) ++ " " ++ filter,
    bind, ?_, bound, ?_⟩
  · simp only [updateBin, nonempty, named, List.isEmpty_iff, Bool.not_true, Bool.false_eq_true,
      or_self, if_false, prepared, sets]
  · simp only [String.toList_append, toList_blankLast_foldl setsGrow _ nonempty]
    unfold updateText
    simp [nameText, backtick]

theorem insertMatches_iff (nonempty : kv.entries ≠ []) (named : table ≠ "") :
    InsertMatches kv table (insertBin true kv table) ↔ Bindable kv table := by
  by_cases fits : kv.entries.length ≤ 256
  · obtain ⟨sql, bind, prepared, bound, text⟩ := insertBin_of_fits nonempty named fits
    let columns := kv.entries.map fun e => e.1.toList
    let values := kv.entries.map fun _ => [placeholder]
    have lexed : lex sql.toList = some (Insert.tokens ⟨table.toList, columns, values⟩) ↔
        backtick ∉ table.toList ∧ (∀ e ∈ kv.entries, backtick ∉ e.1.toList) ∧
          ∀ e ∈ kv.entries, True := by
      rw [text]
      exact lex_insertText nonempty fun _ _ => stands_placeholder
    have proper : Insert.Proper ⟨table.toList, columns, values⟩ := by
      refine ⟨by simpa [columns] using nonempty, by simpa [values] using nonempty, ?_⟩
      intro value listed
      obtain ⟨e, -, rfl⟩ := List.mem_map.mp listed
      decide
    rw [prepared]
    constructor
    · rintro ⟨ts, read, insert, -, -⟩
      obtain ⟨rfl, -⟩ := Insert.read_eq_some.mp insert
      obtain ⟨free, frees, -⟩ := lexed.mp read
      exact ⟨fits, free, frees⟩
    · rintro ⟨-, free, frees⟩
      refine ⟨_, lexed.mpr ⟨free, frees, fun _ _ => trivial⟩,
        Insert.read_eq_some.mpr ⟨rfl, proper⟩, ?_, bound⟩
      rw [placeholder, Insert.count_tokens (by decide)]
      simp [values, placeholder]
  · rw [insertBin_of_long nonempty named (by omega)]
    exact ⟨False.elim, fun bindable => fits bindable.1⟩

theorem updateMatches_iff (nonempty : kv.entries ≠ []) (named : table ≠ "") (filter : String) :
    UpdateMatches kv table filter (updateBin true kv table filter) ↔
      Bindable kv table ∧ placeholders filter = 0 := by
  by_cases fits : kv.entries.length ≤ 256
  · obtain ⟨sql, bind, prepared, bound, text⟩ := updateBin_of_fits nonempty named fits filter
    let sets := kv.entries.map fun e => (e.1.toList, [placeholder])
    have reads_iff :
        ReadsAs (updateText table (kv.entries.map fun e => nameText e.1 ++ '=' :: ['?']))
            (Update.tokens ⟨table.toList, sets⟩) ↔
          backtick ∉ table.toList ∧ ∀ e ∈ kv.entries, backtick ∉ e.1.toList ∧ True :=
      readsAs_updateText nonempty fun _ _ => stands_placeholder
    have own : (Update.tokens ⟨table.toList, sets⟩).count placeholder = kv.entries.length := by
      rw [placeholder, Update.count_tokens (by decide)]
      simp [sets, placeholder, Function.comp_def]
    rw [prepared]
    constructor
    · rintro ⟨before, split, reads, count, -⟩
      have counted : kv.entries.length + placeholders filter = kv.entries.length := by
        rwa [split, transduce_append, reads, List.count_append, own] at count
      rw [text] at split
      obtain rfl := List.append_cancel_right split
      obtain ⟨free, frees⟩ := reads_iff.mp reads
      exact ⟨⟨fits, free, fun e mem => (frees e mem).1⟩, by omega⟩
    · rintro ⟨⟨-, free, frees⟩, none⟩
      have reads := reads_iff.mpr ⟨free, fun e mem => ⟨frees e mem, trivial⟩⟩
      refine ⟨_, text, reads, ?_, bound⟩
      rw [text, transduce_append, reads, List.count_append, own]
      exact congrArg (kv.entries.length + ·) none
  · rw [updateBin_of_long nonempty named (by omega)]
    exact ⟨False.elim, fun bindable => fits bindable.1.1⟩

end

/-- Of the calls that are accepted, those bind every placeholder and nothing else that have at most
256 entries, no backtick in a name and, for an update, no placeholder in the condition. With more
entries the array is overrun. -/
theorem preparedSql_iff (kv : MData π) (table : String) (nonempty : kv.entries ≠ [])
    (named : table ≠ "") :
    (InsertMatches kv table (insertBin true kv table) ↔ Bindable kv table) ∧
    (∀ filter, UpdateMatches kv table filter (updateBin true kv table filter) ↔
      Bindable kv table ∧ placeholders filter = 0) ∧
    (insertBin true kv table = .overrun ↔ 256 < kv.entries.length) ∧
    ∀ filter, updateBin true kv table filter = .overrun ↔ 256 < kv.entries.length := by
  refine ⟨insertMatches_iff nonempty named, updateMatches_iff nonempty named, ⟨?_, ?_⟩,
    fun filter => ⟨?_, ?_⟩⟩
  · intro overrun
    by_contra fits
    obtain ⟨sql, bind, prepared, -⟩ := insertBin_of_fits nonempty named (Nat.le_of_not_lt fits)
    simp [prepared] at overrun
  · exact insertBin_of_long nonempty named
  · intro overrun
    by_contra fits
    obtain ⟨sql, bind, prepared, -⟩ :=
      updateBin_of_fits nonempty named (Nat.le_of_not_lt fits) filter
    simp [prepared] at overrun
  · exact fun long => updateBin_of_long nonempty named long filter

/-- The row of a service, where the pointers are told apart by numbers. -/
def serviceColumns : MData Nat where
  entries := [("private_pb", ⟨0, 12, .CMYSQL_TYPE_BLOB⟩), ("proto", ⟨1, 40, .CMYSQL_TYPE_STRING⟩),
    ("service_ip", ⟨2, 9, .CMYSQL_TYPE_STRING⟩), ("service_name", ⟨3, 4, .CMYSQL_TYPE_STRING⟩),
    ("service_port", ⟨4, 4, .CMYSQL_TYPE_LONG⟩)]
  sorted := by decide

theorem preparedSql_serviceColumns :
    InsertMatches serviceColumns "cms_service_config"
      (insertBin true serviceColumns "cms_service_config") :=
  (preparedSql_iff serviceColumns "cms_service_config" (by decide) (by decide)).1.mpr (by decide)

/-- One column more than the array has elements. -/
def manyColumns : MData Nat where
  entries := (List.range 257).map fun i =>
    (String.ofList [Char.ofNat (97 + i / 17), Char.ofNat (97 + i % 17)], ⟨i, 4, .CMYSQL_TYPE_LONG⟩)
  sorted := List.isChain_iff_pairwise.mp (by decide +kernel)

theorem insertBin_manyColumns :
    insertBin true manyColumns "t" = .overrun ∧
      ¬InsertMatches manyColumns "t" (insertBin true manyColumns "t") := by
  have long : manyColumns.entries.length = 257 := by simp [manyColumns]
  have overrun : insertBin true manyColumns "t" = .overrun :=
    insertBin_of_long (List.ne_nil_of_length_pos (by omega)) (by decide) (by omega)
  exact ⟨overrun, by rw [overrun]; exact id⟩

end MicroserviceFramework.Mysql
