import Mathlib.Algebra.GroupWithZero.Nat
import MicroserviceFramework.Library.SqlText

/-!
# INSERT and UPDATE

The statements as their tokens. An expression in a list of values ends at the first comma or
closing parenthesis that is not inside parentheses of its own; `Insert.read` splits the tokens
there, and `Insert.read_eq_some` says that it inverts `Insert.tokens`.
-/

namespace MicroserviceFramework.Library.Sql

/-! ## Lists of expressions -/

/-- How many parentheses are open after a token, unless it ends the expression. -/
def deeper (depth : Nat) (t : Token) : Option Nat :=
  if t = .sym '(' then some (depth + 1)
  else if t = .sym ')' then if depth = 0 then none else some (depth - 1)
  else if t = .sym ',' ∧ depth = 0 then none
  else some depth

def nest : Nat → List Token → Option Nat
  | depth, [] => some depth
  | depth, t :: ts => (deeper depth t).bind (nest · ts)

/-- One expression, as far as parentheses and commas tell. -/
def IsExpr (ts : List Token) : Prop := ts ≠ [] ∧ nest 0 ts = some 0

instance (ts : List Token) : Decidable (IsExpr ts) := inferInstanceAs (Decidable (_ ∧ _))

def commas (items : List (List Token)) : List Token := [.sym ','].intercalate items

/-- The expressions up to the closing parenthesis, and what comes after it; `item` is what has been
read of the first. -/
def readList : Nat → List Token → List Token → Option (List (List Token) × List Token)
  | _, _, [] => none
  | depth, item, t :: ts =>
    match deeper depth t with
    | some depth => readList depth (item ++ [t]) ts
    | none =>
      if item = [] then none
      else if t = .sym ',' then
        (readList 0 [] ts).map fun (items, rest) => (item :: items, rest)
      else some ([item], ts)

theorem count_commas {t : Token} (other : t ≠ .sym ',') (items : List (List Token)) :
    (commas items).count t = (items.map (·.count t)).sum := by
  induction items with
  | nil => rfl
  | cons item items ih =>
    cases items with
    | nil => simp [commas]
    | cons next items =>
      rw [commas] at ih
      rw [commas, List.intercalate_cons_of_ne_nil (List.cons_ne_nil _ _), List.count_append,
        List.count_append, ih, List.count_singleton]
      simp [Ne.symm other]

theorem deeper_eq_none {depth : Nat} {t : Token} (ends : deeper depth t = none) :
    depth = 0 ∧ (t = .sym ',' ∨ t = .sym ')') := by
  unfold deeper at ends
  split_ifs at ends with opens closes zero comma
  · exact ⟨zero, .inr closes⟩
  · exact ⟨comma.2, .inl comma.1⟩

section

variable {depth depth' : Nat} {ts item item' rest : List Token} {items : List (List Token)}

theorem readList_append (nested : nest depth ts = some depth') (item rest : List Token) :
    readList depth item (ts ++ rest) = readList depth' (item ++ ts) rest := by
  induction ts generalizing depth item with
  | nil =>
    obtain rfl := Option.some.inj nested
    rw [List.nil_append, List.append_nil]
  | cons t ts ih =>
    obtain ⟨next, here, later⟩ := Option.bind_eq_some_iff.mp nested
    rw [List.cons_append, readList, here]
    simpa using ih later (item ++ [t])

theorem readList_commas (nonempty : items ≠ []) (exprs : ∀ item ∈ items, IsExpr item)
    (rest : List Token) : readList 0 [] (commas items ++ .sym ')' :: rest) = some (items, rest) := by
  induction items with
  | nil => exact absurd rfl nonempty
  | cons first items ih =>
    obtain ⟨some_token, nested⟩ := exprs first List.mem_cons_self
    cases items with
    | nil =>
      rw [commas, List.intercalate_singleton, readList_append nested]
      simp [readList, deeper, some_token]
    | cons second items =>
      have later := ih (List.cons_ne_nil _ _) fun e mem => exprs e (List.mem_cons_of_mem _ mem)
      rw [commas, List.intercalate_cons_of_ne_nil (List.cons_ne_nil _ _), List.append_assoc,
        List.append_assoc, readList_append nested, List.singleton_append, List.nil_append]
      rw [commas] at later
      simp [readList, deeper, some_token, later]

/-- What `readList` gives for the first expression is what it had of it and more. -/
theorem readList_inv (read : readList depth item ts = some (items, rest)) :
    ∃ more others, items = (item ++ more) :: others ∧ item ++ more ≠ [] ∧
      nest depth more = some 0 ∧ (∀ e ∈ others, IsExpr e) ∧
      ts = commas (more :: others) ++ .sym ')' :: rest := by
  induction ts generalizing depth item items with
  | nil => simp [readList] at read
  | cons t ts ih =>
    rw [readList] at read
    split at read
    next depth' here =>
      obtain ⟨more, others, rfl, some_token, nested, exprs, rfl⟩ := ih read
      refine ⟨t :: more, others, by simp, by simp, ?_, exprs, ?_⟩
      · rw [nest, here]
        exact nested
      · cases others <;> simp [commas]
    next here =>
      obtain ⟨rfl, ends⟩ := deeper_eq_none here
      split at read
      · simp at read
      next some_token =>
        split at read
        next comma =>
          obtain ⟨⟨others, rest'⟩, later, same⟩ := Option.map_eq_some_iff.mp read
          obtain ⟨rfl, rfl⟩ := Prod.mk.inj same
          obtain ⟨more, others, rfl, some_token', nested, exprs, rfl⟩ := ih later
          refine ⟨[], more :: others, by simp, by simpa using some_token, rfl, ?_, ?_⟩
          · rintro e (_ | ⟨_, mem⟩)
            · exact ⟨some_token', nested⟩
            · exact exprs e mem
          · simp [commas, comma]
        next other =>
          obtain ⟨rfl, rfl⟩ := Prod.mk.inj (Option.some.inj read)
          refine ⟨[], [], by simp, by simpa using some_token, rfl, by simp, ?_⟩
          obtain closes := ends.resolve_left other
          simp [commas, closes]

theorem readList_eq_some : readList 0 [] ts = some (items, rest) ↔
    (items ≠ [] ∧ ∀ item ∈ items, IsExpr item) ∧ ts = commas items ++ .sym ')' :: rest := by
  constructor
  · intro read
    obtain ⟨more, others, rfl, some_token, nested, exprs, rfl⟩ := readList_inv read
    refine ⟨⟨List.cons_ne_nil _ _, ?_⟩, rfl⟩
    exact List.forall_mem_cons.mpr ⟨⟨some_token, nested⟩, exprs⟩
  · rintro ⟨⟨nonempty, exprs⟩, rfl⟩
    exact readList_commas nonempty exprs rest

end

/-- The token that a separator completes. A comment would go on. -/
def Mode.last : Mode → Option (List Token)
  | .code => some []
  | .word w => some [.word w]
  | .closing q s => if q = quote ∨ q = doubleQuote then some [.str s] else none
  | .nameClosing s => some [.name s]
  | .dash => some [.sym '-']
  | .slash => some [.sym '/']
  | _ => none

/-- The tokens of a text that is one expression. -/
def expression (raw : List Char) : Option (List Token) :=
  ((transduce step .code raw).2.last).bind fun last =>
    let ts := (transduce step .code raw).1 ++ last
    if IsExpr ts then some ts else none

theorem step_last {m : Mode} {last : List Token} (complete : m.last = some last) {c : Char}
    (separates : Separator c) : step m c = ending last c := by
  obtain ⟨tokens, begins, notBacktick, notQuoting, notWord, notDouble, notDash, notStar⟩ :=
    separates.start
  have notQuote : c ≠ quote := by rintro rfl; exact notQuoting (by decide)
  unfold Mode.last at complete
  split at complete
  case h_3 q s =>
    split at complete
    next proper =>
      have other : c ≠ q := by rcases proper with rfl | rfl <;> assumption
      obtain rfl := Option.some.inj complete
      simp [step, other]
    · simp at complete
  case h_7 => simp at complete
  all_goals
    cases complete
    simp_all [step, ending]

theorem expression_isExpr {raw : List Char} {ts : List Token} (one : expression raw = some ts) :
    IsExpr ts := by
  obtain ⟨last, -, found⟩ := Option.bind_eq_some_iff.mp one
  obtain ⟨expr, same⟩ := Option.ite_none_right_eq_some.mp found
  exact Option.some.inj same ▸ expr

/-- An expression is read as its tokens wherever a separator follows it. -/
theorem stands_expression {raw : List Char} {ts : List Token} (one : expression raw = some ts) :
    Stands raw ts True := by
  obtain ⟨last, complete, found⟩ := Option.bind_eq_some_iff.mp one
  obtain ⟨-, same⟩ := Option.ite_none_right_eq_some.mp found
  obtain rfl := Option.some.inj same
  constructor
  · intro _ c separates
    obtain ⟨tokens, begins, -⟩ := separates.start
    simp [ReadsAs, transduce_append, transduce, step_last complete separates, ending, begins]
  · intro c rest more separates read
    rw [lex, lexFrom_append (Eq.refl (transduce step .code raw)),
      lexFrom_ending (step_last complete separates)] at read
    refine ⟨trivial, ?_⟩
    obtain ⟨whole, tail, same⟩ := Option.map_eq_some_iff.mp read
    obtain ⟨later, lexed, rfl⟩ := Option.map_eq_some_iff.mp tail
    rw [← List.append_assoc] at same
    rw [lex, lexed, List.append_cancel_left same]

/-! ## Statements -/

structure Insert where
  table : List Char
  columns : List (List Char)
  values : List (List Token)
  deriving DecidableEq, Repr

def Insert.tokens (i : Insert) : List Token :=
  [.word "insert".toList, .word "into".toList, .name i.table, .sym '('] ++
    (commas (i.columns.map fun column => [.name column]) ++ .sym ')' ::
      ([.word "values".toList, .sym '('] ++ (commas i.values ++ [.sym ')'])))

/-- The lists are not empty, and each value is one expression. -/
def Insert.Proper (i : Insert) : Prop :=
  i.columns ≠ [] ∧ i.values ≠ [] ∧ ∀ value ∈ i.values, IsExpr value

instance (i : Insert) : Decidable i.Proper := inferInstanceAs (Decidable (_ ∧ _ ∧ _))

/-- The names that the expressions are. -/
def readNames : List (List Token) → Option (List (List Char))
  | [] => some []
  | [.name column] :: items => (readNames items).map (column :: ·)
  | _ => none

def Insert.read : List Token → Option Insert
  | .word verb :: .word target :: .name table :: .sym opens :: ts =>
    if verb = "insert".toList ∧ target = "into".toList ∧ opens = '(' then
      (readList 0 [] ts).bind fun
        | (items, .word clause :: .sym opens :: ts) =>
          if clause = "values".toList ∧ opens = '(' then
            (readNames items).bind fun columns => (readList 0 [] ts).bind fun
              | (values, []) => some ⟨table, columns, values⟩
              | _ => none
          else none
        | _ => none
    else none
  | _ => none

theorem readNames_eq_some {items : List (List Token)} {columns : List (List Char)} :
    readNames items = some columns ↔ items = columns.map fun column => [.name column] := by
  fun_induction readNames items generalizing columns with
  | case1 => cases columns <;> simp
  | case2 column items ih =>
    rw [Option.map_eq_some_iff]
    constructor
    · rintro ⟨later, read, rfl⟩
      rw [ih.mp read, List.map_cons]
    · intro same
      cases columns with
      | nil => simp at same
      | cons first columns =>
        simp only [List.map_cons, List.cons.injEq, Token.name.injEq, and_true] at same
        exact ⟨columns, ih.mpr same.2, by rw [same.1]⟩
  | case3 items nil other =>
    constructor
    · simp
    · rintro rfl
      cases columns with
      | nil => exact absurd rfl nil
      | cons first columns => exact absurd rfl (other first _)

theorem isExpr_name (column : List Char) : IsExpr [.name column] :=
  ⟨List.cons_ne_nil _ _, by simp [nest, deeper]⟩

/-- The reader finds a proper statement in its own tokens, and in no others. -/
theorem Insert.read_eq_some {ts : List Token} {i : Insert} :
    Insert.read ts = some i ↔ ts = i.tokens ∧ i.Proper := by
  constructor
  · intro read
    unfold Insert.read at read
    split at read
    next verb target table opens ts =>
      split at read
      next start =>
        obtain ⟨rfl, rfl, rfl⟩ := start
        obtain ⟨⟨items, later⟩, list, read⟩ := Option.bind_eq_some_iff.mp read
        split at read
        next clause opens ts pair =>
          obtain ⟨rfl, rfl⟩ := Prod.mk.inj pair
          split at read
          next middle =>
            obtain ⟨rfl, rfl⟩ := middle
            obtain ⟨columns, names, read⟩ := Option.bind_eq_some_iff.mp read
            obtain ⟨⟨values, last⟩, list', read⟩ := Option.bind_eq_some_iff.mp read
            split at read
            next pair' =>
              obtain ⟨rfl, rfl⟩ := Prod.mk.inj pair'
              obtain rfl := Option.some.inj read
              obtain ⟨⟨some_column, -⟩, rfl⟩ := readList_eq_some.mp list
              obtain ⟨⟨some_value, exprs⟩, rfl⟩ := readList_eq_some.mp list'
              obtain rfl := readNames_eq_some.mp names
              exact ⟨rfl, by simpa using some_column, some_value, exprs⟩
            · simp at read
          · simp at read
        · simp at read
      · simp at read
    · simp at read
  · rintro ⟨rfl, some_column, some_value, exprs⟩
    obtain ⟨table, columns, values⟩ := i
    have columnExprs : ∀ item ∈ columns.map fun column => [Token.name column], IsExpr item := by
      intro item mem
      obtain ⟨column, -, rfl⟩ := List.mem_map.mp mem
      exact isExpr_name column
    have first := readList_commas (by simpa using some_column) columnExprs
      ([.word "values".toList, .sym '('] ++ (commas values ++ [.sym ')']))
    have names := readNames_eq_some.mpr (Eq.refl (columns.map fun column => [Token.name column]))
    have second := readList_commas some_value exprs []
    simp only [List.cons_append, List.nil_append] at first
    simp only [Insert.read, Insert.tokens, List.cons_append, List.nil_append, and_self, if_true,
      first, Option.bind_some, names, second]

/-- A symbol that the statement itself does not use is in its values. -/
theorem Insert.count_tokens {c : Char} (other : c ∉ ['(', ')', ',']) (i : Insert) :
    i.tokens.count (.sym c) = (i.values.map (·.count (.sym c))).sum := by
  simp only [List.mem_cons, List.not_mem_nil, or_false, not_or] at other
  obtain ⟨opens, closes, comma⟩ := other
  have apart : Token.sym c ≠ .sym ',' := by simpa using comma
  have names : (commas (i.columns.map fun column => [.name column])).count (.sym c) = 0 := by
    rw [count_commas apart]
    induction i.columns with
    | nil => rfl
    | cons column columns ih => simpa using ih
  simp only [Insert.tokens, List.count_append, List.count_cons, names, count_commas apart]
  simp [Ne.symm opens, Ne.symm closes]

/-- `UPDATE` up to its condition. -/
structure Update where
  table : List Char
  sets : List (List Char × List Token)
  deriving DecidableEq, Repr

def Update.tokens (u : Update) : List Token :=
  [.word "update".toList, .name u.table, .word "set".toList] ++
    commas (u.sets.map fun set => .name set.1 :: .sym '=' :: set.2)

theorem Update.count_tokens {c : Char} (other : c ∉ [',', '=']) (u : Update) :
    u.tokens.count (.sym c) = (u.sets.map (·.2.count (.sym c))).sum := by
  simp only [List.mem_cons, List.not_mem_nil, or_false, not_or] at other
  have apart : Token.sym c ≠ .sym ',' := by simpa using other.1
  simp [Update.tokens, count_commas apart, Function.comp_def, Ne.symm other.2]

end MicroserviceFramework.Library.Sql
