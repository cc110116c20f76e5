import MicroserviceFramework.Library.SqlStatement
import MicroserviceFramework.Mysql.CMysql

/-!
# The layout of the statements

What the two loops of `CMysql` put together, as lists with commas between their entries, and when
a statement laid out so is read as it was meant. The columns and the values are any pieces that
stand for something (`Stands`): data, expressions or placeholders.
-/

namespace MicroserviceFramework.Mysql

open Library Library.Sql
open Auth (cstr)

def nameText (name : String) : List Char := backtick :: (name.toList ++ [backtick])

def commaText (items : List (List Char)) : List Char := [','].intercalate items

def insertText (table : String) (columns values : List (List Char)) : List Char :=
  "insert into ".toList ++ (nameText table ++ '(' :: (commaText columns ++ ' ' ::
    (")values(".toList ++ (commaText values ++ ' ' :: [')']))))

/-- The text before the condition. -/
def updateText (table : String) (sets : List (List Char)) : List Char :=
  "update ".toList ++ (nameText table ++ ' ' :: ("set ".toList ++ (commaText sets ++ ' ' :: [' '])))

/-! ## The loops -/

section

variable {α σ τ : Type*}

theorem foldl_pair (f : σ → α → σ) (g : τ → α → τ) (s : σ) (t : τ) (l : List α) :
    l.foldl (fun p a => (f p.1 a, g p.2 a)) (s, t) = (l.foldl f s, l.foldl g t) := by
  induction l generalizing s t with
  | nil => rfl
  | cons a l ih => exact ih (f s a) (g t a)

theorem toList_foldl {f : String → α → String} {piece : α → List Char}
    (grows : ∀ s a, (f s a).toList = s.toList ++ (piece a ++ [','])) (s : String) (l : List α) :
    (l.foldl f s).toList = s.toList ++ l.flatMap fun a => piece a ++ [','] := by
  induction l generalizing s with
  | nil => simp
  | cons a l ih => simp only [List.foldl_cons, ih, grows, List.flatMap_cons, List.append_assoc]

theorem dropLast_flatMap (piece : α → List Char) {l : List α} (nonempty : l ≠ []) :
    (l.flatMap fun a => piece a ++ [',']).dropLast = commaText (l.map piece) := by
  induction l with
  | nil => exact absurd rfl nonempty
  | cons a l ih =>
    cases l with
    | nil => simp [commaText]
    | cons b l =>
      have later := ih (List.cons_ne_nil b l)
      rw [List.flatMap_cons, List.dropLast_append_of_ne_nil (by simp), later]
      simp [commaText]

/-- A loop that appends a comma after every entry, and the blank that overwrites the last one. -/
theorem toList_blankLast_foldl {f : String → α → String} {piece : α → List Char}
    (grows : ∀ s a, (f s a).toList = s.toList ++ (piece a ++ [','])) (s : String) {l : List α}
    (nonempty : l ≠ []) :
    (blankLast (l.foldl f s)).toList = s.toList ++ (commaText (l.map piece) ++ [' ']) := by
  have some_piece : (l.flatMap fun a => piece a ++ [',']) ≠ [] := by
    obtain ⟨a, rest, rfl⟩ := List.exists_cons_of_ne_nil nonempty
    simp
  rw [blankLast, String.toList_ofList, toList_foldl grows,
    List.dropLast_append_of_ne_nil some_piece, dropLast_flatMap piece nonempty, List.append_assoc]

end

/-! ## Reading the layout -/

section

variable {α : Type*} {table : String} {l : List α} {name : α → String}
  {text : α → List Char} {tokens : α → List Token} {ok : α → Prop}

theorem lex_insertText (nonempty : l ≠ [])
    (each : ∀ a ∈ l, Stands (text a) (tokens a) (ok a)) :
    lex (insertText table (l.map fun a => nameText (name a)) (l.map text)) =
        some (Insert.tokens ⟨table.toList, l.map fun a => (name a).toList, l.map tokens⟩) ↔
      backtick ∉ table.toList ∧ (∀ a ∈ l, backtick ∉ (name a).toList) ∧ ∀ a ∈ l, ok a := by
  have start : ReadsAs "insert into ".toList [.word "insert".toList, .word "into".toList] := by
    decide
  have middle : ReadsAs ")values(".toList [.sym ')', .word "values".toList, .sym '('] := by decide
  have named : Stands (nameText table) [.name table.toList] (backtick ∉ table.toList) :=
    stands_name table.toList
  have columns : Stands (commaText (l.map fun a => nameText (name a)))
      (commas (l.map fun a => [.name (name a).toList])) (∀ a ∈ l, backtick ∉ (name a).toList) :=
    stands_intercalate (fun a _ => stands_name (name a).toList) nonempty
  have values : Stands (commaText (l.map text)) (commas (l.map tokens)) (∀ a ∈ l, ok a) :=
    stands_intercalate each nonempty
  have same : Insert.tokens ⟨table.toList, l.map fun a => (name a).toList, l.map tokens⟩ =
      [.word "insert".toList, .word "into".toList] ++ ([.name table.toList] ++ .sym '(' ::
        (commas (l.map fun a => [.name (name a).toList]) ++
          ([.sym ')', .word "values".toList, .sym '('] ++ (commas (l.map tokens) ++ [.sym ')'])))) := by
    simp [Insert.tokens, Function.comp_def]
  unfold insertText
  rw [same]
  constructor
  · intro read
    obtain ⟨free, afterTable⟩ := named.lex_single single_open (start.lex_rest read)
    obtain ⟨frees, afterColumns⟩ := columns.lex_blank afterTable
    obtain ⟨fine, -⟩ := values.lex_blank (middle.lex_rest afterColumns)
    exact ⟨free, frees, fine⟩
  · rintro ⟨free, frees, fine⟩
    have closes : ReadsAs [')'] [.sym ')'] := rfl
    have whole := start.append ((named.reads_single free single_open).append
      ((columns.reads_blank frees).append
        (middle.append ((values.reads_blank fine).append closes))))
    simpa [nameText] using whole.lex

theorem readsAs_updateText (nonempty : l ≠ [])
    (each : ∀ a ∈ l, Stands (text a) (tokens a) (ok a)) :
    ReadsAs (updateText table (l.map fun a => nameText (name a) ++ '=' :: text a))
        (Update.tokens ⟨table.toList, l.map fun a => ((name a).toList, tokens a)⟩) ↔
      backtick ∉ table.toList ∧ ∀ a ∈ l, backtick ∉ (name a).toList ∧ ok a := by
  have start : ReadsAs "update ".toList [.word "update".toList] := by decide
  have middle : ReadsAs "set ".toList [.word "set".toList] := by decide
  have named : Stands (nameText table) [.name table.toList] (backtick ∉ table.toList) :=
    stands_name table.toList
  have sets : Stands (commaText (l.map fun a => nameText (name a) ++ '=' :: text a))
      (commas (l.map fun a => [.name (name a).toList] ++ .sym '=' :: tokens a))
      (∀ a ∈ l, backtick ∉ (name a).toList ∧ ok a) :=
    stands_intercalate (fun a mem => (stands_name _).append single_equals (each a mem)) nonempty
  have same : Update.tokens ⟨table.toList, l.map fun a => ((name a).toList, tokens a)⟩ =
      [.word "update".toList] ++ ([.name table.toList] ++ ([.word "set".toList] ++
        (commas (l.map fun a => [.name (name a).toList] ++ .sym '=' :: tokens a) ++ []))) := by
    simp [Update.tokens, Function.comp_def]
  unfold updateText
  rw [same]
  constructor
  · intro reads
    obtain ⟨free, afterTable⟩ := named.lex_blank (start.lex_rest reads.lex)
    obtain ⟨fine, -⟩ := sets.lex_blank (middle.lex_rest afterTable)
    exact ⟨free, fine⟩
  · rintro ⟨free, fine⟩
    have blank : ReadsAs [' '] [] := rfl
    have whole := start.append ((named.reads_blank free).append
      (middle.append ((sets.reads_blank fine).append blank)))
    simpa [nameText] using whole

end

end MicroserviceFramework.Mysql
