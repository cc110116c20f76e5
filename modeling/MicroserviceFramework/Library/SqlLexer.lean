import MicroserviceFramework.Library.Machine
import Mathlib.Data.List.Induction
import Mathlib.Data.List.Chain

/-!
# The tokens of an SQL statement

MySQL's lexical rules with their default settings, as a machine fed one character at a time.
A string stands in single or double quotes; in it a backslash starts an escape and a doubled
quote is a quote. Comments are skipped, those that MySQL executes (`/*! .. */`) included.

`Literal` says what a string literal is without the machine, and `lexFrom_str` that the machine
reads exactly those.
-/

namespace MicroserviceFramework.Library.Sql

def quote : Char := Char.ofNat 39
def doubleQuote : Char := Char.ofNat 34
def backslash : Char := Char.ofNat 92
def backtick : Char := Char.ofNat 96

inductive Token where
  /-- A keyword, an unquoted name or a number. -/
  | word (w : List Char)
  | str (content : List Char)
  /-- A name in backticks. -/
  | name (content : List Char)
  | sym (c : Char)
  deriving DecidableEq, Repr

/-- Where in a token the machine is, with what it has read of it. -/
inductive Mode where
  | code
  | word (w : List Char)
  | str (q : Char) (content : List Char)
  /-- In a string, after a backslash. -/
  | escape (q : Char) (content : List Char)
  /-- In a string, after a quote, which ends it unless another one follows. -/
  | closing (q : Char) (content : List Char)
  | name (content : List Char)
  | nameClosing (content : List Char)
  | dash | dashes | line | slash | block | star
  deriving DecidableEq, Repr

def isSpace (c : Char) : Bool := c = Char.ofNat 32 ∨ 9 ≤ c.toNat ∧ c.toNat ≤ 13

def isWord (c : Char) : Bool := c.isAlphanum ∨ c = '_' ∨ c = '$' ∨ 128 ≤ c.toNat

/-- What an escape stands for. Before `%` and `_` the backslash stays. -/
def unescape (c : Char) : List Char :=
  if c = '0' then [Char.ofNat 0]
  else if c = 'b' then [Char.ofNat 8]
  else if c = 't' then [Char.ofNat 9]
  else if c = 'n' then [Char.ofNat 10]
  else if c = 'r' then [Char.ofNat 13]
  else if c = 'Z' then [Char.ofNat 26]
  else if c = '%' ∨ c = '_' then [backslash, c]
  else [c]

/-- A character between two tokens. -/
def start (c : Char) : List Token × Mode :=
  if isSpace c then ([], .code)
  else if isWord c then ([], .word [c])
  else if c = quote ∨ c = doubleQuote then ([], .str c [])
  else if c = backtick then ([], .name [])
  else if c = '#' then ([], .line)
  else if c = '-' then ([], .dash)
  else if c = '/' then ([], .slash)
  else ([.sym c], .code)

/-- The tokens are complete, and `c` comes after them. -/
def ending (tokens : List Token) (c : Char) : List Token × Mode :=
  (tokens ++ (start c).1, (start c).2)

def step : Mode → Char → List Token × Mode
  | .code, c => start c
  | .word w, c => if isWord c then ([], .word (w ++ [c])) else ending [.word w] c
  | .str q s, c =>
    if c = backslash then ([], .escape q s)
    else if c = q then ([], .closing q s)
    else ([], .str q (s ++ [c]))
  | .escape q s, c => ([], .str q (s ++ unescape c))
  | .closing q s, c => if c = q then ([], .str q (s ++ [q])) else ending [.str s] c
  | .name s, c => if c = backtick then ([], .nameClosing s) else ([], .name (s ++ [c]))
  | .nameClosing s, c => if c = backtick then ([], .name (s ++ [c])) else ending [.name s] c
  | .dash, c => if c = '-' then ([], .dashes) else ending [.sym '-'] c
  -- two dashes start a comment only before a blank or a control character
  | .dashes, c =>
    if c = Char.ofNat 10 then ([], .code)
    else if isSpace c ∨ c.toNat < 32 then ([], .line)
    else if c = '-' then ([.sym '-'], .dashes)
    else ending [.sym '-', .sym '-'] c
  | .line, c => if c = Char.ofNat 10 then ([], .code) else ([], .line)
  | .slash, c => if c = '*' then ([], .block) else ending [.sym '/'] c
  | .block, c => if c = '*' then ([], .star) else ([], .block)
  | .star, c =>
    if c = '/' then ([], .code) else if c = '*' then ([], .star) else ([], .block)

theorem step_code (c : Char) : step .code c = start c := rfl

/-- The end of the statement; strings, names and block comments must not be open there. -/
def finish : Mode → Option (List Token)
  | .code | .line | .dashes => some []
  | .word w => some [.word w]
  | .closing _ s => some [.str s]
  | .nameClosing s => some [.name s]
  | .dash => some [.sym '-']
  | .slash => some [.sym '/']
  | .str .. | .escape .. | .name _ | .block | .star => none

/-- The tokens of `cs`, read from the middle of a statement. -/
def lexFrom (m : Mode) (cs : List Char) : Option (List Token) :=
  (finish (transduce step m cs).2).map ((transduce step m cs).1 ++ ·)

def lex (cs : List Char) : Option (List Token) := lexFrom .code cs

@[simp] theorem lexFrom_nil (m : Mode) : lexFrom m [] = finish m := by
  simp [lexFrom, transduce]

theorem lexFrom_cons (m : Mode) (c : Char) (cs : List Char) :
    lexFrom m (c :: cs) = (lexFrom (step m c).2 cs).map ((step m c).1 ++ ·) := by
  simp [lexFrom, transduce, Function.comp_def]

theorem lexFrom_silent {m m' : Mode} {c : Char} (silent : step m c = ([], m')) (cs : List Char) :
    lexFrom m (c :: cs) = lexFrom m' cs := by
  simp [lexFrom_cons, silent]

/-- What has been read stays read. -/
theorem lexFrom_append {m m' : Mode} {xs : List Char} {tokens : List Token}
    (read : transduce step m xs = (tokens, m')) (ys : List Char) :
    lexFrom m (xs ++ ys) = (lexFrom m' ys).map (tokens ++ ·) := by
  induction xs generalizing m tokens with
  | nil =>
    obtain ⟨rfl, rfl⟩ := Prod.mk.inj read
    simp
  | cons c cs ih =>
    obtain ⟨rfl, rfl⟩ := Prod.mk.inj read
    rw [List.cons_append, lexFrom_cons, ih rfl]
    simp [Function.comp_def]

/-- After a token that is complete, the machine is between two tokens again. -/
theorem lexFrom_ending {m : Mode} {c : Char} {tokens : List Token}
    (ended : step m c = ending tokens c) (cs : List Char) :
    lexFrom m (c :: cs) = (lexFrom .code (c :: cs)).map (tokens ++ ·) := by
  rw [lexFrom_cons, ended, lexFrom_cons]
  simp [ending, step_code, Function.comp_def]

/-- Letters and digits go on with a word. -/
theorem lexFrom_word {cs : List Char} (all : ∀ c ∈ cs, isWord c) (w : List Char) :
    lexFrom (.word w) cs = some [.word (w ++ cs)] := by
  induction cs generalizing w with
  | nil => simp [finish]
  | cons c cs ih =>
    have silent : step (.word w) c = ([], .word (w ++ [c])) := by
      simp [step, all c List.mem_cons_self]
    rw [lexFrom_silent silent, ih fun d mem => all d (List.mem_cons_of_mem _ mem)]
    simp

/-! ## String literals -/

/-- `raw`, between two quotes `q`, is the string `content`. -/
inductive Literal (q : Char) : List Char → List Char → Prop where
  | nil : Literal q [] []
  | plain {c : Char} {raw content : List Char} : c ≠ backslash → c ≠ q → Literal q raw content →
      Literal q (c :: raw) (c :: content)
  | escape {c : Char} {raw content : List Char} : Literal q raw content →
      Literal q (backslash :: c :: raw) (unescape c ++ content)
  | double {raw content : List Char} : Literal q raw content →
      Literal q (q :: q :: raw) (q :: content)

section

variable {q : Char} {raw content rest : List Char}

theorem lexFrom_closing (follows : rest.head? ≠ some q) :
    lexFrom (.closing q content) rest = (lexFrom .code rest).map (.str content :: ·) := by
  cases rest with
  | nil => rfl
  | cons c cs =>
    have other : c ≠ q := by simpa using follows
    have ended : step (.closing q content) c = ending [.str content] c := by simp [step, other]
    exact lexFrom_ending ended cs

/-- A literal is one token, up to its closing quote. -/
theorem Literal.lexFrom (literal : Literal q raw content) (proper : q ≠ backslash)
    (follows : rest.head? ≠ some q) (acc : List Char) :
    lexFrom (.str q acc) (raw ++ q :: rest) =
      (Sql.lexFrom .code rest).map (.str (acc ++ content) :: ·) := by
  induction literal generalizing acc with
  | nil =>
    rw [List.nil_append, lexFrom_silent (by simp [step, proper]; rfl), lexFrom_closing follows,
      List.append_nil]
  | @plain c _ content notBackslash notQuote _ ih =>
    rw [List.cons_append, lexFrom_silent (by simp [step, notBackslash, notQuote]; rfl), ih]
    simp
  | @escape c _ content _ ih =>
    rw [List.cons_append, lexFrom_silent (by simp [step]; rfl), List.cons_append,
      lexFrom_silent rfl, ih]
    simp
  | @double _ content _ ih =>
    rw [List.cons_append, lexFrom_silent (by simp [step, proper]; rfl), List.cons_append,
      lexFrom_silent (by simp [step]; rfl), ih]
    simp

/-- The machine accepts a string only where there is a literal. -/
theorem lexFrom_str_inv (proper : q ≠ backslash) {cs : List Char} {tokens : List Token}
    (acc : List Char) (read : lexFrom (.str q acc) cs = some tokens) :
    ∃ raw content rest, cs = raw ++ q :: rest ∧ Literal q raw content ∧ rest.head? ≠ some q ∧
      ∃ more, lexFrom .code rest = some more ∧ tokens = .str (acc ++ content) :: more := by
  induction cs using List.twoStepInduction generalizing acc with
  | nil => simp [finish] at read
  | singleton c =>
    by_cases escapes : c = backslash
    · have silent : step (.str q acc) c = ([], .escape q acc) := by simp [step, escapes]
      rw [lexFrom_silent silent] at read
      simp [finish] at read
    by_cases closes : c = q
    · subst closes
      rw [lexFrom_silent (by simp [step, escapes]; rfl)] at read
      exact ⟨[], [], [], rfl, .nil, by simp, [], rfl, by simpa [finish, eq_comm] using read⟩
    · rw [lexFrom_silent (by simp [step, escapes, closes]; rfl)] at read
      simp [finish] at read
  | cons_cons c d cs two one =>
    by_cases escapes : c = backslash
    · subst escapes
      rw [lexFrom_silent (by simp [step]; rfl), lexFrom_silent rfl] at read
      obtain ⟨raw, content, rest, rfl, literal, follows, same⟩ := two _ read
      exact ⟨_, _, rest, rfl, literal.escape, follows, by simpa using same⟩
    by_cases closes : c = q
    · subst closes
      rw [lexFrom_silent (by simp [step, escapes]; rfl)] at read
      by_cases doubles : d = c
      · subst doubles
        rw [lexFrom_silent (by simp [step]; rfl)] at read
        obtain ⟨raw, content, rest, rfl, literal, follows, same⟩ := two _ read
        exact ⟨_, _, rest, rfl, literal.double, follows, by simpa using same⟩
      · have follows : (d :: cs).head? ≠ some c := by simpa using doubles
        rw [lexFrom_closing follows] at read
        obtain ⟨more, after, rfl⟩ := Option.map_eq_some_iff.mp read
        exact ⟨[], [], d :: cs, rfl, .nil, follows, more, after, by simp⟩
    · rw [lexFrom_silent (by simp [step, escapes, closes]; rfl)] at read
      obtain ⟨raw, content, rest, split, literal, follows, same⟩ := one d _ read
      exact ⟨_, _, rest, congrArg (c :: ·) split, literal.plain escapes closes, follows,
        by simpa using same⟩

/-! ## Strings that stand for themselves -/

/-- No quote, and `%` or `_` immediately after every backslash. -/
def Verbatim (q : Char) (s : List Char) : Prop :=
  q ∉ s ∧ (s ++ [q]).IsChain fun c d => c = backslash → d = '%' ∨ d = '_'

instance (q : Char) (s : List Char) : Decidable (Verbatim q s) :=
  inferInstanceAs (Decidable (_ ∧ _))

theorem Verbatim.of_not_mem {s : List Char} (noQuote : q ∉ s) (noBackslash : backslash ∉ s) :
    Verbatim q s := by
  refine ⟨noQuote, ?_⟩
  clear noQuote
  induction s with
  | nil => exact List.isChain_singleton q
  | cons c s ih =>
    rw [List.mem_cons, not_or] at noBackslash
    refine List.isChain_cons.mpr ⟨fun _ _ escapes => ?_, ih noBackslash.2⟩
    exact absurd escapes.symm noBackslash.1

theorem unescape_length_le (c : Char) : (unescape c).length ≤ 2 := by
  unfold unescape
  split_ifs <;> simp

theorem unescape_wildcard {c : Char} (wildcard : c = '%' ∨ c = '_') :
    unescape c = [backslash, c] := by
  rcases wildcard with rfl | rfl <;> rfl

theorem wildcard_of_length {c : Char} (long : 2 ≤ (unescape c).length) : c = '%' ∨ c = '_' := by
  by_contra other
  unfold unescape at long
  rw [if_neg other] at long
  split_ifs at long <;> simp at long

theorem Literal.length_le (literal : Literal q raw content) : content.length ≤ raw.length := by
  induction literal with
  | nil => simp
  | plain _ _ _ ih => simpa using ih
  | @escape c _ _ _ ih =>
    have short := unescape_length_le c
    simp only [List.length_append, List.length_cons]
    omega
  | double _ ih =>
    simp only [List.length_cons]
    omega

/-- A literal that loses nothing stands for itself. -/
theorem Literal.verbatim (proper : q ≠ backslash) (wildcard : ¬(q = '%' ∨ q = '_'))
    (literal : Literal q raw content) (full : raw.length ≤ content.length) :
    content = raw ∧ Verbatim q raw := by
  induction literal with
  | nil => simp [Verbatim]
  | @plain c raw content notBackslash notQuote rest ih =>
    obtain ⟨rfl, free, chain⟩ := ih (by simpa using full)
    refine ⟨rfl, by simp [Ne.symm notQuote, free], ?_⟩
    exact List.isChain_cons.mpr ⟨fun _ _ escapes => absurd escapes notBackslash, chain⟩
  | @escape c raw content rest ih =>
    have short := unescape_length_le c
    have shorter := rest.length_le
    simp only [List.length_append, List.length_cons] at full
    have escaped := wildcard_of_length (c := c) (by omega)
    have notBackslash : c ≠ backslash := by rcases escaped with rfl | rfl <;> decide
    have notQuote : q ≠ c := by rintro rfl; exact wildcard escaped
    obtain ⟨rfl, free, chain⟩ := ih (by omega)
    refine ⟨by simp [unescape_wildcard escaped], by simp [proper, notQuote, free], ?_⟩
    exact List.isChain_cons_cons.mpr ⟨fun _ => escaped,
      List.isChain_cons.mpr ⟨fun _ _ escapes => absurd escapes notBackslash, chain⟩⟩
  | double rest ih =>
    have shorter := rest.length_le
    simp only [List.length_cons] at full
    omega

theorem Verbatim.literal (wildcard : ¬(q = '%' ∨ q = '_')) {s : List Char}
    (verbatim : Verbatim q s) : Literal q s s := by
  induction s using List.twoStepInduction with
  | nil => exact .nil
  | singleton c =>
    have notBackslash : c ≠ backslash := fun escapes =>
      wildcard ((List.isChain_cons_cons.mp verbatim.2).1 escapes)
    exact .plain notBackslash (fun same => verbatim.1 (by simp [same])) .nil
  | cons_cons c d cs two one =>
    obtain ⟨free, chain⟩ := verbatim
    simp only [List.mem_cons, not_or] at free
    obtain ⟨escaped, later⟩ := List.isChain_cons_cons.mp chain
    by_cases escapes : c = backslash
    · subst escapes
      have rest := (two ⟨free.2.2, (List.isChain_cons.mp later).2⟩).escape (c := d)
      rwa [unescape_wildcard (escaped rfl)] at rest
    · exact .plain escapes (Ne.symm free.1) (one d ⟨by simp [free.2], later⟩)

/-- A quote in a literal is a quote of the string, however it is written. -/
theorem Literal.mem (plain : unescape q = [q]) (proper : q ≠ backslash)
    (literal : Literal q raw content) (mem : q ∈ raw) : q ∈ content := by
  induction literal with
  | nil => exact mem
  | plain _ _ _ ih =>
    rcases List.mem_cons.mp mem with rfl | later
    · exact List.mem_cons_self
    · exact List.mem_cons_of_mem _ (ih later)
  | @escape c _ _ _ ih =>
    simp only [List.mem_cons, proper, false_or] at mem
    rcases mem with rfl | later
    · simp [plain]
    · exact List.mem_append_right _ (ih later)
  | double => exact List.mem_cons_self

end

end MicroserviceFramework.Library.Sql
