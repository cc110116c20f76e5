import MicroserviceFramework.Library.SqlLexer

/-!
# Texts that are put together from pieces

A program that prints a statement puts names in backticks, strings in quotes and separators
between them. `ReadsAs` says what a piece is read as when it ends between two tokens, and `Stands`
when a piece that a separator follows is read as it was meant. Both go through concatenation.

That a name or a string is read as it was meant only if it needs no quoting is a matter of
counting: what quoting adds to a text it adds in quotes and backslashes.
-/

namespace MicroserviceFramework.Library.Sql

/-- `text` is read as `tokens`, and ends between two of them. -/
def ReadsAs (text : List Char) (tokens : List Token) : Prop :=
  transduce step .code text = (tokens, .code)

instance (text : List Char) (tokens : List Token) : Decidable (ReadsAs text tokens) :=
  inferInstanceAs (Decidable (_ = _))

section

variable {text text' rest : List Char} {tokens tokens' more : List Token}

theorem ReadsAs.append (left : ReadsAs text tokens) (right : ReadsAs text' tokens') :
    ReadsAs (text ++ text') (tokens ++ tokens') := by
  unfold ReadsAs at *
  rw [transduce_append, left, right]

theorem ReadsAs.lex_append (reads : ReadsAs text tokens) (rest : List Char) :
    lex (text ++ rest) = (lex rest).map (tokens ++ ·) :=
  lexFrom_append reads rest

theorem ReadsAs.lex (reads : ReadsAs text tokens) : Sql.lex text = some tokens := by
  simpa [Sql.lex, finish] using reads.lex_append []

/-- What comes after the piece is read as what comes after its tokens. -/
theorem ReadsAs.lex_rest (reads : ReadsAs text tokens)
    (read : Sql.lex (text ++ rest) = some (tokens ++ more)) : Sql.lex rest = some more := by
  rw [reads.lex_append] at read
  obtain ⟨later, lexed, same⟩ := Option.map_eq_some_iff.mp read
  rw [lexed, List.append_cancel_left same]

end

/-! ## Counting what quoting adds -/

/-- `raw` and `content` both begin a text in which the quote `q` and then `c` follow `content`. If
`raw` has more characters than `content` only as it has more that satisfy `p`, it has at most that
quote more. -/
theorem eq_of_countP {p : Char → Bool} {q c : Char} {raw content rest rest' : List Char}
    (counts : raw.countP p + content.length = content.countP p + raw.length)
    (longer : content.length ≤ raw.length)
    (same : raw ++ rest' = content ++ q :: c :: rest) (other : ¬p c) :
    raw = content ∨ raw = content ++ [q] := by
  obtain ⟨extra, rfl⟩ : content <+: raw :=
    List.prefix_of_prefix_length_le (List.prefix_append content (q :: c :: rest)) ⟨_, same⟩ longer
  have all : extra.countP p = extra.length := by
    rw [List.countP_append, List.length_append] at counts
    omega
  rw [List.append_assoc] at same
  have tail := List.append_cancel_left same
  match extra with
  | [] => exact .inl (List.append_nil _)
  | [d] =>
    obtain rfl : d = q := by simpa using congrArg (·.head?) tail
    exact .inr rfl
  | d :: e :: extra =>
    simp only [List.cons_append, List.cons.injEq] at tail
    obtain ⟨-, rfl, -⟩ := tail
    exact absurd (List.countP_eq_length.mp all e (by simp)) other

theorem eq_of_countP_closed {p : Char → Bool} {q c : Char} {raw content rest rest' : List Char}
    (counts : raw.countP p + content.length = content.countP p + raw.length)
    (longer : content.length ≤ raw.length)
    (same : raw ++ q :: rest' = content ++ q :: c :: rest) (quotes : p q) (other : ¬p c) :
    raw = content := by
  refine (eq_of_countP counts longer same other).resolve_right ?_
  rintro rfl
  rw [List.append_assoc] at same
  have tail := List.append_cancel_left same
  simp only [List.cons_append, List.nil_append, List.cons.injEq] at tail
  exact other (tail.2.1 ▸ quotes)

/-! ## Names -/

/-- `raw`, between two backticks, is the name `content`. -/
inductive NameLiteral : List Char → List Char → Prop where
  | nil : NameLiteral [] []
  | plain {c : Char} {raw content : List Char} : c ≠ backtick → NameLiteral raw content →
      NameLiteral (c :: raw) (c :: content)
  | double {raw content : List Char} : NameLiteral raw content →
      NameLiteral (backtick :: backtick :: raw) (backtick :: content)

section Names

variable {raw content name rest : List Char} {tokens more : List Token} {c : Char}

theorem NameLiteral.countP (literal : NameLiteral raw content) :
    raw.countP (· = backtick) + content.length = content.countP (· = backtick) + raw.length := by
  induction literal with
  | nil => rfl
  | plain other _ ih =>
    rw [List.countP_cons_of_neg (by simpa using other), List.countP_cons_of_neg (by simpa using other)]
    grind
  | double _ ih =>
    rw [List.countP_cons_of_pos (by simp), List.countP_cons_of_pos (by simp),
      List.countP_cons_of_pos (by simp)]
    grind

theorem NameLiteral.length_le (literal : NameLiteral raw content) :
    content.length ≤ raw.length := by
  induction literal with
  | nil => exact le_rfl
  | plain _ _ ih => grind
  | double _ ih => grind

theorem NameLiteral.not_mem (literal : NameLiteral raw content) (full : raw = content) :
    backtick ∉ raw := by
  induction literal with
  | nil => exact List.not_mem_nil
  | plain other _ ih => grind
  | double literal ih =>
    have short := literal.length_le
    grind

theorem lexFrom_nameClosing (follows : rest.head? ≠ some backtick) :
    lexFrom (.nameClosing content) rest = (lexFrom .code rest).map (.name content :: ·) := by
  cases rest with
  | nil => rfl
  | cons c cs =>
    have other : c ≠ backtick := by simpa using follows
    have ended : step (.nameClosing content) c = ending [.name content] c := by simp [step, other]
    exact lexFrom_ending ended cs

/-- The machine accepts a name in backticks only where there is one. -/
theorem lexFrom_name_inv {cs acc : List Char} (read : lexFrom (.name acc) cs = some tokens) :
    ∃ raw content rest more, cs = raw ++ backtick :: rest ∧ NameLiteral raw content ∧
      lexFrom .code rest = some more ∧ tokens = .name (acc ++ content) :: more := by
  induction cs using List.twoStepInduction generalizing acc with
  | nil => simp [finish] at read
  | singleton c =>
    by_cases closes : c = backtick
    · subst closes
      rw [lexFrom_silent (by simp [step]; rfl)] at read
      exact ⟨[], [], [], [], rfl, .nil, rfl, by simpa [finish, eq_comm] using read⟩
    · rw [lexFrom_silent (by simp [step, closes]; rfl)] at read
      simp [finish] at read
  | cons_cons c d cs two one =>
    by_cases closes : c = backtick
    · subst closes
      rw [lexFrom_silent (by simp [step]; rfl)] at read
      by_cases doubles : d = backtick
      · subst doubles
        rw [lexFrom_silent (by simp [step]; rfl)] at read
        obtain ⟨raw, content, rest, more, rfl, literal, after, same⟩ := two read
        exact ⟨_, _, rest, more, rfl, literal.double, after, by simpa using same⟩
      · have follows : (d :: cs).head? ≠ some backtick := by simpa using doubles
        rw [lexFrom_nameClosing follows] at read
        obtain ⟨more, after, rfl⟩ := Option.map_eq_some_iff.mp read
        exact ⟨[], [], d :: cs, more, rfl, .nil, after, by simp⟩
    · rw [lexFrom_silent (by simp [step, closes]; rfl)] at read
      obtain ⟨raw, content, rest, more, split, literal, after, same⟩ := one d read
      exact ⟨_, _, rest, more, congrArg (c :: ·) split, literal.plain closes, after,
        by simpa using same⟩

/-- A name that is read as itself has no backtick. -/
theorem lexFrom_name_self (other : c ≠ backtick)
    (read : lexFrom (.name []) (name ++ backtick :: c :: rest) = some (.name name :: more)) :
    backtick ∉ name ∧ lexFrom .code (c :: rest) = some more := by
  obtain ⟨raw, content, rest', more', split, literal, after, same⟩ := lexFrom_name_inv read
  obtain ⟨rfl, rfl⟩ : name = content ∧ more = more' := by simpa using same
  have full : raw = name := eq_of_countP_closed literal.countP literal.length_le split.symm (by simp)
    (by simpa using other)
  subst full
  obtain rfl : c :: rest = rest' := by simpa using split
  exact ⟨literal.not_mem rfl, after⟩

theorem transduce_name (free : backtick ∉ name) (acc : List Char) :
    transduce step (.name acc) name = ([], .name (acc ++ name)) := by
  induction name generalizing acc with
  | nil => simp [transduce]
  | cons d ds ih =>
    rw [List.mem_cons, not_or] at free
    simp [transduce, step, Ne.symm free.1, ih free.2]

end Names

/-! ## Strings -/

/-- What quoting adds to a string in single quotes. -/
def isQuoting (c : Char) : Bool := c = quote ∨ c = backslash

section Strings

variable {raw content s rest : List Char} {more : List Token} {c : Char}

theorem countP_unescape (c : Char) :
    (unescape c).countP isQuoting + 1 = (unescape c).length + [c].countP isQuoting := by
  unfold unescape
  split_ifs with zero b t n r z wildcard
  all_goals first | subst c; decide | skip
  · rcases wildcard with rfl | rfl <;> decide
  · simp [Nat.add_comm]

theorem Literal.countP (literal : Literal quote raw content) :
    raw.countP isQuoting + content.length = content.countP isQuoting + raw.length := by
  induction literal with
  | nil => rfl
  | @plain c _ _ notBackslash notQuote _ ih =>
    have neither : ¬isQuoting c := by simp [isQuoting, notBackslash, notQuote]
    rw [List.countP_cons_of_neg neither, List.countP_cons_of_neg neither]
    grind
  | @escape c raw _ _ ih =>
    have escaped := countP_unescape c
    have first : (c :: raw).countP isQuoting = [c].countP isQuoting + raw.countP isQuoting := by
      rw [← List.countP_append, List.singleton_append]
    rw [List.countP_cons_of_pos (by decide), first, List.countP_append]
    grind
  | double _ ih =>
    rw [List.countP_cons_of_pos (by decide), List.countP_cons_of_pos (by decide),
      List.countP_cons_of_pos (by decide)]
    grind

/-- A string that is read as itself stands for itself. -/
theorem lexFrom_str_self (other : ¬isQuoting c)
    (read : lexFrom (.str quote []) (s ++ quote :: c :: rest) = some (.str s :: more)) :
    Verbatim quote s ∧ lexFrom .code (c :: rest) = some more := by
  obtain ⟨raw, content, rest', split, literal, -, more', after, same⟩ :=
    lexFrom_str_inv (by decide) [] read
  obtain ⟨rfl, rfl⟩ : s = content ∧ more = more' := by simpa using same
  have full : raw = s :=
    eq_of_countP_closed literal.countP literal.length_le split.symm (by decide) other
  subst full
  obtain rfl : c :: rest = rest' := by simpa using split
  exact ⟨(literal.verbatim (by decide) (by decide) le_rfl).2, after⟩

/-- `raw` is two literals, of `before` and of `d :: after`. -/
def Splits (q d : Char) (after raw before : List Char) : Prop :=
  ∃ first second, raw = first ++ second ∧ Literal q first before ∧ Literal q second (d :: after)

/-- One item of a literal, `w`, which stands for the one character `x`. -/
theorem splits_item {q d x : Char} {w before after : List Char}
    (item : ∀ {r k}, Literal q r k → Literal q (w ++ r) (x :: k)) (rest : Literal q raw content)
    (ih : ∀ {before}, content = before ++ d :: after → Splits q d after raw before)
    (same : x :: content = before ++ d :: after) : Splits q d after (w ++ raw) before := by
  cases before with
  | nil =>
    rw [List.nil_append] at same
    exact ⟨[], _, rfl, .nil, same ▸ item rest⟩
  | cons e before =>
    obtain ⟨rfl, later⟩ := List.cons.inj same
    obtain ⟨first, second, rfl, left, right⟩ := ih later
    exact ⟨w ++ first, second, (List.append_assoc ..).symm, item left, right⟩

/-- A literal splits where its string does, but not in an escape that stands for two characters. -/
theorem Literal.splits {q d : Char} {before after : List Char} (whole : ¬(d = '%' ∨ d = '_'))
    (literal : Literal q raw content) (same : content = before ++ d :: after) :
    Splits q d after raw before := by
  induction literal generalizing before with
  | nil => simp at same
  | @plain c _ _ notBackslash notQuote rest ih =>
    exact splits_item (w := [c]) (fun l => l.plain notBackslash notQuote) rest ih same
  | @escape c raw content rest ih =>
    by_cases wildcard : c = '%' ∨ c = '_'
    · have item {r k : List Char} (l : Literal q r k) :
          Literal q (backslash :: c :: r) (backslash :: c :: k) := by
        have escaped := l.escape (c := c)
        rwa [unescape_wildcard wildcard] at escaped
      rw [unescape_wildcard wildcard] at same
      match before with
      | [] =>
        rw [List.nil_append] at same
        exact ⟨[], _, rfl, .nil, same ▸ item rest⟩
      | [e] =>
        simp only [List.cons_append, List.nil_append, List.cons.injEq] at same
        exact absurd (same.2.1 ▸ wildcard) whole
      | e :: e' :: before =>
        simp only [List.cons_append, List.nil_append, List.cons.injEq] at same
        obtain ⟨rfl, rfl, later⟩ := same
        obtain ⟨first, second, rfl, left, right⟩ := ih later
        exact ⟨backslash :: c :: first, second, rfl, item left, right⟩
    · obtain ⟨x, one⟩ : ∃ x, unescape c = [x] := by
        unfold unescape
        split_ifs <;> exact ⟨_, rfl⟩
      have item {r k : List Char} (l : Literal q r k) :
          Literal q ([backslash, c] ++ r) (x :: k) := by
        have escaped := l.escape (c := c)
        rwa [one] at escaped
      rw [one] at same
      exact splits_item item rest ih same
  | double rest ih => exact splits_item (w := [q, q]) Literal.double rest ih same

/-- A string is not read with more behind it, unless that begins like what follows its quote. -/
theorem lexFrom_str_ne {d : Char} {after : List Char} (other : ¬isQuoting c) (new : ¬isQuoting d)
    (whole : ¬(d = '%' ∨ d = '_')) (differ : d ≠ c) :
    lexFrom (.str quote []) (s ++ quote :: c :: rest) ≠ some (.str (s ++ d :: after) :: more) := by
  intro read
  obtain ⟨raw, content, rest', split, literal, -, more', -, same⟩ :=
    lexFrom_str_inv (by decide) [] read
  obtain ⟨rfl, -⟩ : s ++ d :: after = content ∧ more = more' := by simpa using same
  obtain ⟨first, second, rfl, left, right⟩ := literal.splits whole rfl
  rw [List.append_assoc] at split
  -- the second literal begins where the quote or the separator is
  have begins : second ++ quote :: rest' = quote :: c :: rest ∨
      second ++ quote :: rest' = c :: rest := by
    rcases eq_of_countP left.countP left.length_le split.symm other with rfl | rfl
    · exact .inl (List.append_cancel_left split).symm
    · rw [List.append_assoc] at split
      exact .inr (List.cons.inj (List.append_cancel_left split)).2.symm
  have notQuote : c ≠ quote := by rintro rfl; exact other (by decide)
  have notBackslash : c ≠ backslash := by rintro rfl; exact other (by decide)
  have notQuote' : d ≠ quote := by rintro rfl; exact new (by decide)
  have quotes : backslash ≠ quote := by decide
  generalize string : d :: after = content at right
  cases right with
  | nil => simp at string
  | plain => grind
  | escape => grind
  | double => grind

theorem Literal.transduce {q : Char} (literal : Literal q raw content) (proper : q ≠ backslash)
    (acc : List Char) :
    Library.transduce step (.str q acc) (raw ++ [q]) = ([], .closing q (acc ++ content)) := by
  induction literal generalizing acc with
  | nil => simp [Library.transduce, step, proper]
  | plain notBackslash notQuote _ ih => simp [Library.transduce, step, notBackslash, notQuote, ih]
  | escape _ ih => simp [Library.transduce, step, ih]
  | double _ ih => simp [Library.transduce, step, proper, ih]

end Strings

/-! ## Pieces that a separator follows -/

/-- These characters end a word, a name and a string, and begin none. -/
def Separator (c : Char) : Prop := c ∈ [',', ' ', '=', '(', ')']

instance : DecidablePred Separator := fun c => inferInstanceAs (Decidable (c ∈ _))

theorem Separator.start {c : Char} (separates : Separator c) :
    ∃ tokens, start c = (tokens, .code) ∧ c ≠ backtick ∧ ¬isQuoting c ∧ ¬isWord c ∧
      c ≠ doubleQuote ∧ c ≠ '-' ∧ c ≠ '*' := by
  simp only [Separator, List.mem_cons, List.not_mem_nil, or_false] at separates
  rcases separates with rfl | rfl | rfl | rfl | rfl <;> exact ⟨_, rfl, by decide⟩

/-- Before a separator, `text` is read as `tokens` if and only if `ok`. -/
structure Stands (text : List Char) (tokens : List Token) (ok : Prop) : Prop where
  reads : ok → ∀ c, Separator c → ReadsAs (text ++ [c]) (tokens ++ (start c).1)
  only : ∀ c rest more, Separator c → lex (text ++ c :: rest) = some (tokens ++ more) →
    ok ∧ lex (c :: rest) = some more

theorem stands_name (name : List Char) :
    Stands (backtick :: (name ++ [backtick])) [.name name] (backtick ∉ name) where
  reads free c separates := by
    obtain ⟨tokens, begins, other, -⟩ := separates.start
    have after : step (.nameClosing name) c = ([.name name] ++ tokens, .code) := by
      simp [step, other, ending, begins]
    have opens : step .code backtick = ([], .name []) := rfl
    have closes : step (.name name) backtick = ([], .nameClosing name) := rfl
    simp [ReadsAs, transduce, transduce_append, opens, transduce_name free, closes, after, begins]
  only c rest more separates read := by
    obtain ⟨-, -, other, -⟩ := separates.start
    have opens : lex (backtick :: (name ++ [backtick]) ++ c :: rest) =
        lexFrom (.name []) (name ++ backtick :: c :: rest) := by
      rw [lex, List.cons_append, lexFrom_silent rfl, List.append_assoc]
      rfl
    rw [opens] at read
    exact lexFrom_name_self other read

theorem stands_str (s : List Char) :
    Stands (quote :: (s ++ [quote])) [.str s] (Verbatim quote s) where
  reads verbatim c separates := by
    obtain ⟨tokens, begins, -, other, -⟩ := separates.start
    have notQuote : c ≠ quote := by rintro rfl; exact other (by decide)
    have after : step (.closing quote s) c = ([.str s] ++ tokens, .code) := by
      simp [step, notQuote, ending, begins]
    have opens : step .code quote = ([], .str quote []) := rfl
    have inside := (verbatim.literal (by decide)).transduce (by decide) []
    have whole : quote :: (s ++ [quote]) ++ [c] = quote :: ((s ++ [quote]) ++ [c]) := rfl
    rw [ReadsAs, whole, transduce, opens, transduce_append, inside]
    simp [transduce, after, begins]
  only c rest more separates read := by
    obtain ⟨-, -, -, other, -⟩ := separates.start
    have opens : lex (quote :: (s ++ [quote]) ++ c :: rest) =
        lexFrom (.str quote []) (s ++ quote :: c :: rest) := by
      rw [lex, List.cons_append, lexFrom_silent rfl, List.append_assoc]
      rfl
    rw [opens] at read
    exact lexFrom_str_self other read

/-- A text that reads as itself whatever comes after it. -/
theorem ReadsAs.stands {text : List Char} {tokens : List Token} (reads : ReadsAs text tokens) :
    Stands text tokens True where
  reads _ c separates := by
    obtain ⟨more, begins, -⟩ := separates.start
    have last : ReadsAs [c] (start c).1 := by simp [ReadsAs, transduce, step_code, begins]
    exact reads.append last
  only c rest more _ read := ⟨trivial, reads.lex_rest read⟩

theorem Stands.congr {text : List Char} {tokens : List Token} {p q : Prop}
    (stands : Stands text tokens p) (same : p ↔ q) : Stands text tokens q := by
  rwa [← propext same]

/-- `c` is a token of its own. -/
def Single (c : Char) : Prop := Separator c ∧ start c = ([.sym c], .code)

theorem Single.readsAs {c : Char} (single : Single c) : ReadsAs [c] [.sym c] := by
  simp [ReadsAs, transduce, step_code, single.2]

section

variable {piece rest : List Char} {tokens more : List Token} {p : Prop} {c : Char}

theorem Stands.reads_single (stands : Stands piece tokens p) (ok : p) (single : Single c) :
    ReadsAs (piece ++ [c]) (tokens ++ [.sym c]) := by
  have reads := stands.reads ok c single.1
  rwa [single.2] at reads

/-- A blank after the piece is skipped. -/
theorem Stands.reads_blank (stands : Stands piece tokens p) (ok : p) :
    ReadsAs (piece ++ [' ']) tokens := by
  have reads := stands.reads ok ' ' (by decide)
  rwa [show (start ' ').1 = [] from rfl, List.append_nil] at reads

theorem Stands.lex_single (stands : Stands piece tokens p) (single : Single c)
    (read : lex (piece ++ c :: rest) = some (tokens ++ .sym c :: more)) :
    p ∧ lex rest = some more := by
  obtain ⟨ok, later⟩ := stands.only c rest _ single.1 read
  exact ⟨ok, single.readsAs.lex_rest later⟩

theorem Stands.lex_blank (stands : Stands piece tokens p)
    (read : lex (piece ++ ' ' :: rest) = some (tokens ++ more)) : p ∧ lex rest = some more := by
  have blank : ReadsAs [' '] [] := rfl
  obtain ⟨ok, later⟩ := stands.only ' ' rest more (by decide) read
  exact ⟨ok, blank.lex_rest later⟩

end

theorem Stands.append {left right : List Char} {leftTokens rightTokens : List Token} {p q : Prop}
    {c : Char} (single : Single c) (first : Stands left leftTokens p)
    (second : Stands right rightTokens q) :
    Stands (left ++ c :: right) (leftTokens ++ .sym c :: rightTokens) (p ∧ q) where
  reads ok d separates := by
    simpa using (first.reads_single ok.1 single).append (second.reads ok.2 d separates)
  only d rest more separates read := by
    rw [List.append_assoc, List.cons_append, List.append_assoc, List.cons_append] at read
    obtain ⟨fine, after⟩ := first.lex_single single read
    obtain ⟨fine', last⟩ := second.only d rest more separates after
    exact ⟨⟨fine, fine'⟩, last⟩

theorem single_open : Single '(' := ⟨by decide, rfl⟩

theorem single_comma : Single ',' := ⟨by decide, rfl⟩

theorem single_equals : Single '=' := ⟨by decide, rfl⟩

/-- A list with commas between its entries. -/
theorem stands_intercalate {α : Type*} {l : List α} {text : α → List Char}
    {tokens : α → List Token} {ok : α → Prop}
    (each : ∀ a ∈ l, Stands (text a) (tokens a) (ok a)) (nonempty : l ≠ []) :
    Stands ([','].intercalate (l.map text)) ([.sym ','].intercalate (l.map tokens))
      (∀ a ∈ l, ok a) := by
  induction l with
  | nil => exact absurd rfl nonempty
  | cons a l ih =>
    have here := each a List.mem_cons_self
    cases l with
    | nil =>
      simpa only [List.map_cons, List.map_nil, List.intercalate_singleton, List.forall_mem_singleton]
        using here
    | cons b l =>
      have later := ih (fun c mem => each c (List.mem_cons_of_mem _ mem)) (List.cons_ne_nil b l)
      rw [List.map_cons, List.map_cons (f := tokens), List.intercalate_cons_of_ne_nil (by simp),
        List.intercalate_cons_of_ne_nil (by simp)]
      refine Stands.congr ?_ List.forall_mem_cons.symm
      simpa only [List.append_assoc, List.singleton_append] using
        Stands.append single_comma here later

end MicroserviceFramework.Library.Sql
