import KeyCompute.Database.Value

/-!
# Routing of statements

`DbRouter` (`keycompute-db/src/db_router.rs`) sends a statement to the primary when the text of the
statement, with the bound values written in, looks like a write.  For a `WITH` query the classifier
counts parentheses up to the main statement, also those inside quoted texts.

`with_write_routed` says exactly which writes it recognises.  `lex` is what the database takes for
a parenthesis, and only serves to say what the main statement is.
-/

namespace KeyCompute.DbRouter

open List

/-- `sea_orm::Statement`: the SQL text up to the first placeholder, and for each placeholder the
value bound to it and the SQL text that follows. -/
structure Statement (V : Type) where
  sql : String
  bound : List (V × String)

/-- The text form of a statement; `render` writes a value as an SQL literal. -/
def Statement.toText {V : Type} (render : V → String) (s : Statement V) : List Char :=
  s.sql.toList ++ s.bound.flatMap fun b => (render b.1).toList ++ b.2.toList

/-- `to_ascii_uppercase`. -/
def upper (text : List Char) : List Char := text.map Char.toUpper

/-- The clauses that make a select lock its rows. -/
def lockingClauses : List (List Char) :=
  ["FOR UPDATE", "FOR SHARE", "FOR NO KEY UPDATE", "FOR KEY SHARE", "LOCK IN SHARE MODE"].map
    String.toList

def isLockingSelect (text : List Char) : Bool :=
  lockingClauses.any fun clause => decide (clause <:+: upper text)

def writeKeywords : List (List Char) :=
  ["INSERT ", "UPDATE ", "DELETE ", "REPLACE "].map String.toList

def startsWrite (text : List Char) : Bool := writeKeywords.any fun k => decide (k <+: text)

/-- The loop of `cte_main_stmt_is_write`, at `depth` open parentheses. -/
def scan : ℕ → List Char → Bool
  | _, [] => false
  | depth, c :: rest =>
    if c = '(' then scan (depth + 1) rest
    else if c = ')' ∧ 0 < depth then scan (depth - 1) rest
    else if depth = 0 ∧ startsWrite (c :: rest) then true
    else scan depth rest

def cteMainStmtIsWrite (text : List Char) : Bool :=
  let rest := text.drop "WITH ".length
  scan 0 (if "RECURSIVE ".toList <+: rest then rest.drop "RECURSIVE ".length else rest)

def isWriteStatement (text : List Char) : Bool :=
  let up := upper (text.dropWhile Text.isWhitespace)
  if startsWrite up then true
  else if "WITH ".toList <+: up then cteMainStmtIsWrite up
  else false

inductive Pool
  | write
  | read
  deriving DecidableEq

/-- `query_one` and `query_all` of a router with `reads` read replicas. -/
def query {V : Type} (render : V → String) (reads : ℕ) (s : Statement V) : Pool :=
  let text := s.toText render
  if isWriteStatement text || isLockingSelect text || reads == 0 then .write else .read

/-! ## What the database reads -/

/-- Where a reader of SQL stands: between tokens (`marked` right behind an `E`, or behind the end
of an `E` literal, which a further quote continues), in a quoted name, in a plain literal, or in an
`E` literal, where a backslash covers the next character. -/
inductive Place
  | code (marked : Bool)
  | name
  | literal
  | escaped (covered : Bool)
  deriving DecidableEq

/-- The open parentheses and the place, after one more character. -/
def lex : ℕ × Place → Char → ℕ × Place
  | (depth, .code marked), c =>
    if c = '(' then (depth + 1, .code false)
    else if c = ')' then (depth - 1, .code false)
    else if c = '"' then (depth, .name)
    else if c = '\'' then (depth, if marked then .escaped false else .literal)
    else (depth, .code (c == 'E'))
  | (depth, .name), c => (depth, if c = '"' then .code false else .name)
  | (depth, .literal), c => (depth, if c = '\'' then .code false else .literal)
  | (depth, .escaped true), _ => (depth, .escaped false)
  | (depth, .escaped false), c =>
    (depth, if c = '\\' then .escaped true else if c = '\'' then .code true else .escaped false)

/-- `text` is a `WITH` query: behind the list of its common table expressions, where no
parenthesis, name or literal is open, stands the write `keyword`. -/
structure WithWrite (text ctes keyword tail : List Char) : Prop where
  text_eq : upper (text.dropWhile Text.isWhitespace) = "WITH".toList ++ ctes ++ keyword ++ tail
  keyword_mem : keyword ∈ ["INSERT", "UPDATE", "DELETE"].map String.toList
  closed : ∃ marked, ctes.foldl lex (0, .code false) = (0, .code marked)

/-- The parentheses the classifier takes for open, after one more character. -/
def count (depth : ℕ) (c : Char) : ℕ :=
  if c = '(' then depth + 1 else if c = ')' then depth - 1 else depth

/-! ## The classifier -/

theorem startsWrite_iff {text : List Char} :
    startsWrite text = true ↔ ∃ keyword ∈ writeKeywords, keyword <+: text := by
  simp [startsWrite]

theorem not_startsWrite_parenthesis {c : Char} (rest : List Char) (h : c = '(' ∨ c = ')') :
    startsWrite (c :: rest) = false := by
  rcases h with rfl | rfl <;> simp [startsWrite, writeKeywords]

/-- At each character the classifier finds a write there, or goes on. -/
theorem scan_cons (depth : ℕ) (c : Char) (rest : List Char) :
    scan depth (c :: rest) =
      (decide (depth = 0) && startsWrite (c :: rest) || scan (count depth c) rest) := by
  rw [scan, count]
  by_cases opens : c = '('
  · simp [opens, not_startsWrite_parenthesis]
  by_cases close : c = ')'
  · -- a parenthesis that closes nothing is skipped
    rcases Nat.eq_zero_or_pos depth with rfl | inner
    · simp [close, not_startsWrite_parenthesis]
    · simp [close, inner, not_startsWrite_parenthesis]
  · simp only [opens, close, false_and, if_false]
    split
    · simp_all
    · simp_all

/-- The classifier finds a write exactly where one begins behind parentheses that it takes for
closed. -/
theorem scan_iff {text : List Char} {depth : ℕ} : scan depth text = true ↔
    ∃ before rest, text = before ++ rest ∧ before.foldl count depth = 0 ∧
      startsWrite rest = true := by
  induction text generalizing depth with
  | nil =>
    refine ⟨fun h => absurd h (by simp [scan]), ?_⟩
    rintro ⟨before, rest, text_eq, -, write⟩
    obtain ⟨rfl, rfl⟩ := append_eq_nil_iff.1 text_eq.symm
    simp [startsWrite, writeKeywords] at write
  | cons c text ih =>
    rw [scan_cons, Bool.or_eq_true, Bool.and_eq_true, decide_eq_true_iff, ih]
    constructor
    · rintro (⟨rfl, write⟩ | ⟨before, rest, rfl, closed, write⟩)
      · exact ⟨[], c :: text, rfl, rfl, write⟩
      · exact ⟨c :: before, rest, rfl, closed, write⟩
    · rintro ⟨before, rest, text_eq, closed, write⟩
      cases before with
      | nil =>
        obtain rfl : c :: text = rest := text_eq
        exact Or.inl ⟨closed, write⟩
      | cons b before =>
        obtain ⟨rfl, rfl⟩ := cons.inj text_eq
        exact Or.inr ⟨before, rest, rfl, closed, write⟩

/-- Dropping `RECURSIVE` changes nothing: no write starts inside it. -/
theorem scan_recursive (rest : List Char) :
    scan 0 ("RECURSIVE ".toList ++ rest) = scan 0 rest := by
  simp [scan, startsWrite, writeKeywords]

theorem cteMainStmtIsWrite_eq (rest : List Char) :
    cteMainStmtIsWrite ("WITH ".toList ++ rest) = scan 0 rest := by
  unfold cteMainStmtIsWrite
  rw [drop_left' (by rfl)]
  dsimp only
  split
  next recursive =>
    obtain ⟨rest, rfl⟩ := recursive
    rw [drop_left' (by rfl), scan_recursive]
  · rfl

/-- **Which writes go to the primary.**  A `WITH` query whose main statement is a write is sent to
the write connection if and only if there is no replica, its text has a locking clause, or behind
`WITH` and a space a write keyword with a space begins where the parentheses are closed, counted
together with those in names, literals and bound values.  Otherwise it is sent to a replica. -/
theorem with_write_routed {V : Type} (render : V → String) (reads : ℕ) (s : Statement V)
    (ctes keyword tail : List Char) (main : WithWrite (s.toText render) ctes keyword tail) :
    query render reads s = .write ↔ reads = 0 ∨
      (∃ clause ∈ lockingClauses, clause <:+: upper (s.toText render)) ∨
      ∃ before write rest, upper ((s.toText render).dropWhile Text.isWhitespace) =
          "WITH ".toList ++ (before ++ (write ++ rest)) ∧
        before.foldl count 0 = 0 ∧ write ∈ writeKeywords := by
  have not_first : startsWrite (upper ((s.toText render).dropWhile Text.isWhitespace)) = false := by
    rw [main.text_eq]
    simp [startsWrite, writeKeywords]
  have locking : isLockingSelect (s.toText render) = true ↔
      ∃ clause ∈ lockingClauses, clause <:+: upper (s.toText render) := by
    simp [isLockingSelect]
  have write : isWriteStatement (s.toText render) = true ↔
      ∃ before write rest, upper ((s.toText render).dropWhile Text.isWhitespace) =
          "WITH ".toList ++ (before ++ (write ++ rest)) ∧
        before.foldl count 0 = 0 ∧ write ∈ writeKeywords := by
    rw [isWriteStatement]
    simp only [not_first, Bool.false_eq_true, if_false]
    split
    next spaced =>
      obtain ⟨text, text_eq⟩ := spaced
      rw [← text_eq, cteMainStmtIsWrite_eq, scan_iff]
      constructor
      · rintro ⟨before, rest, rfl, closed, found⟩
        obtain ⟨write, mem, rest, rfl⟩ := startsWrite_iff.1 found
        exact ⟨before, write, rest, rfl, closed, mem⟩
      · rintro ⟨before, write, rest, same, closed, mem⟩
        exact ⟨before, write ++ rest, append_cancel_left same, closed,
          startsWrite_iff.2 ⟨write, mem, prefix_append ..⟩⟩
    next unspaced =>
      refine ⟨fun h => absurd h Bool.false_ne_true, ?_⟩
      rintro ⟨before, write, rest, text_eq, -⟩
      exact absurd ⟨_, text_eq.symm⟩ unspaced
  rw [← locking, ← write, query]
  simp only [ite_eq_left_iff, reduceCtorEq, imp_false, not_not, Bool.or_eq_true, beq_iff_eq]
  rw [or_comm, or_comm (b := isLockingSelect _ = true)]

/-! ## A bound value that hides the main statement -/

/-- An update of the users of one name, found by a common table expression. -/
def renameUsers (name : String) : Statement String :=
  ⟨"WITH named AS (SELECT id FROM users WHERE name = ",
    [(name, ") UPDATE users SET name = '' RETURNING id")]⟩

/-- One character of a text value, as `escape_string` of the query builder writes it. -/
def escapeChar (c : Char) : List Char :=
  match c with
  | '\\' => ['\\', '\\']
  | '"' => ['\\', '"']
  | '\'' => ['\\', '\'']
  | '\x00' => ['\\', '0']
  | '\x08' => ['\\', 'b']
  | '\t' => ['\\', 't']
  | '\x1a' => ['\\', 'z']
  | '\n' => ['\\', 'n']
  | '\r' => ['\\', 'r']
  | c => [c]

/-- A text value as an SQL literal of the database: an `E` literal if a character had to be
escaped. -/
def textLiteral (value : String) : String :=
  let escaped := value.toList.flatMap escapeChar
  String.ofList ((if '\\' ∈ escaped then ['E', '\''] else ['\'']) ++ escaped ++ ['\''])

theorem with_write_routed_renameUsers : query textLiteral 1 (renameUsers "it's )(") = .write :=
  (with_write_routed textLiteral 1 (renameUsers "it's )(")
    " NAMED AS (SELECT ID FROM USERS WHERE NAME = E'IT\\'S )(') ".toList "UPDATE".toList
    " USERS SET NAME = '' RETURNING ID".toList
    ⟨by decide +kernel, by decide, false, by decide +kernel⟩).2
    (Or.inr (Or.inr ⟨"NAMED AS (SELECT ID FROM USERS WHERE NAME = E'IT\\'S )(') ".toList,
      "UPDATE ".toList, "USERS SET NAME = '' RETURNING ID".toList, by decide +kernel,
      by decide +kernel, by decide⟩))

/-- The name `(` sends the same update to a read replica. -/
theorem with_write_to_replica :
    (∃ ctes tail, WithWrite ((renameUsers "(").toText textLiteral) ctes "UPDATE".toList tail) ∧
      query textLiteral 1 (renameUsers "(") = .read :=
  ⟨⟨" NAMED AS (SELECT ID FROM USERS WHERE NAME = '(') ".toList,
    " USERS SET NAME = '' RETURNING ID".toList,
    by decide +kernel, by decide, false, by decide +kernel⟩, by decide +kernel⟩

end KeyCompute.DbRouter
