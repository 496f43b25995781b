/-
  OwAnalytics.Lib.Sql

  The text of a SQL condition.  A lexer in which a literal stands between single
  quotes and a quote inside it is written as two; a reader of conjunctions of
  comparisons; and what such a condition selects.  A text with its quotes doubled is
  read back from a literal whatever stands around it; a text put in as it is is read
  back only if it has no quote.
-/

import Mathlib

namespace Sql

/-! ## The lexer -/

/-- The tokens of a condition. -/
inductive Token
  | word (s : List Char)
  | literal (s : List Char)
  | digits (s : List Char)
  | symbol (c : Char)
deriving DecidableEq

/-- Where the lexer is; a quote inside a literal closes it, unless another one follows. -/
inductive Mode
  | between
  | word (s : List Char)
  | digits (s : List Char)
  | literal (s : List Char)
  | quote (s : List Char)
deriving DecidableEq

/-- A blank between tokens. -/
def isBlank (c : Char) : Bool := c == ' ' || c == '\t' || c == '\n' || c == '\r'

/-- A letter of a word. -/
def isWordChar (c : Char) : Bool := c.isAlpha || c == '_'

/-- A character outside a literal. -/
def start (c : Char) : List Token × Mode :=
  if isBlank c then ([], .between)
  else if c = '\'' then ([], .literal [])
  else if isWordChar c then ([], .word [c])
  else if c.isDigit then ([], .digits [c])
  else ([.symbol c], .between)

/-- One character: the tokens it ends, and the mode it leads to. -/
def step : Mode → Char → List Token × Mode
  | .between, c => start c
  | .word s, c =>
    if isWordChar c || c.isDigit then ([], .word (s ++ [c]))
    else ((.word s) :: (start c).1, (start c).2)
  | .digits s, c =>
    if c.isDigit then ([], .digits (s ++ [c])) else ((.digits s) :: (start c).1, (start c).2)
  | .literal s, c => if c = '\'' then ([], .quote s) else ([], .literal (s ++ [c]))
  | .quote s, c =>
    if c = '\'' then ([], .literal (s ++ ['\''])) else ((.literal s) :: (start c).1, (start c).2)

/-- The tokens of a text, and the mode at its end. -/
def scan : Mode → List Char → List Token × Mode
  | m, [] => ([], m)
  | m, c :: rest => ((step m c).1 ++ (scan (step m c).2 rest).1, (scan (step m c).2 rest).2)

/-- The token the text ends in; a literal has to be closed. -/
def finish : Mode → Option (List Token)
  | .between => some []
  | .word s => some [.word s]
  | .digits s => some [.digits s]
  | .literal _ => none
  | .quote s => some [.literal s]

/-- The tokens of a text; `none` if a literal is not closed. -/
def lex (text : List Char) : Option (List Token) :=
  (finish (scan .between text).2).map ((scan .between text).1 ++ ·)

theorem scan_append (m : Mode) (xs ys : List Char) :
    scan m (xs ++ ys)
      = ((scan m xs).1 ++ (scan (scan m xs).2 ys).1, (scan (scan m xs).2 ys).2) := by
  induction xs generalizing m with
  | nil => rfl
  | cons c rest ih =>
      rw [List.cons_append, scan, ih, scan]
      simp only [List.append_assoc]

/-! ## Literals -/

/-- A text with its quotes doubled. -/
def escape : List Char → List Char
  | [] => []
  | c :: rest => if c = '\'' then '\'' :: '\'' :: escape rest else c :: escape rest

theorem escape_cons_quote (rest : List Char) :
    escape ('\'' :: rest) = '\'' :: '\'' :: escape rest := rfl

theorem escape_cons_of_ne {c : Char} (h : c ≠ '\'') (rest : List Char) :
    escape (c :: rest) = c :: escape rest := by
  rw [escape, if_neg h]

/-- A text without a quote is its own escape. -/
theorem escape_eq_self {v : List Char} (h : '\'' ∉ v) : escape v = v := by
  induction v with
  | nil => rfl
  | cons c rest ih =>
      rw [List.mem_cons, not_or] at h
      rw [escape_cons_of_ne (Ne.symm h.1), ih h.2]

theorem length_le_escape (v : List Char) : v.length ≤ (escape v).length := by
  induction v with
  | nil => exact le_rfl
  | cons c rest ih =>
      rw [escape]
      split_ifs
      · simp only [List.length_cons]
        omega
      · simp only [List.length_cons]
        omega

/-- A text with a quote is not. -/
theorem escape_ne_self {v : List Char} (h : '\'' ∈ v) : escape v ≠ v := by
  induction v with
  | nil => cases h
  | cons c rest ih =>
      by_cases hc : c = '\''
      · subst hc
        intro heq
        have hlen := congrArg List.length heq
        have hle := length_le_escape rest
        rw [escape_cons_quote] at hlen
        simp only [List.length_cons] at hlen
        omega
      · rw [escape_cons_of_ne hc]
        intro heq
        rcases List.mem_cons.mp h with h | h
        · exact hc h.symm
        · exact ih h (List.cons.inj heq).2

theorem escape_eq_nil {v : List Char} : escape v = [] ↔ v = [] := by
  cases v with
  | nil => simp [escape]
  | cons c rest =>
      rw [escape]
      split_ifs <;> simp

/-- Inside a literal an escaped text is read as the text. -/
theorem scan_escape (s v : List Char) : scan (.literal s) (escape v) = ([], .literal (s ++ v)) := by
  induction v generalizing s with
  | nil => rw [List.append_nil]; rfl
  | cons c rest ih =>
      by_cases hc : c = '\''
      · subst hc
        have htwo : scan (.literal s) ('\'' :: '\'' :: escape rest)
            = scan (.literal (s ++ ['\''])) (escape rest) := by
          simp [scan, step]
        rw [escape_cons_quote, htwo, ih, List.append_assoc]
        rfl
      · have hone : scan (.literal s) (c :: escape rest)
            = scan (.literal (s ++ [c])) (escape rest) := by
          simp [scan, step, hc]
        rw [escape_cons_of_ne hc, hone, ih, List.append_assoc]
        rfl

/-- Digits are read as one token. -/
theorem scan_digits (s v : List Char) (h : ∀ c ∈ v, c.isDigit = true) :
    scan (.digits s) v = ([], .digits (s ++ v)) := by
  induction v generalizing s with
  | nil => rw [List.append_nil]; rfl
  | cons c rest ih =>
      rw [List.forall_mem_cons] at h
      have hone : scan (.digits s) (c :: rest) = scan (.digits (s ++ [c])) rest := by
        simp [scan, step, h.1]
      rw [hone, ih _ h.2, List.append_assoc]
      rfl

/-- A digit is none of what else a token may begin with. -/
theorem start_digit {c : Char} (h : c.isDigit = true) : start c = ([], .digits [c]) := by
  have hne : ∀ d : Char, d.isDigit = false → c ≠ d := by
    rintro d hd rfl
    rw [h] at hd
    cases hd
  have hblank : isBlank c = false := by
    simp [isBlank, hne ' ' rfl, hne '\t' rfl, hne '\n' rfl, hne '\r' rfl]
  have halpha : c.isAlpha = false := by
    simp only [Char.isDigit, Char.isAlpha, Char.isUpper, Char.isLower] at *
    grind
  have hword : isWordChar c = false := by simp [isWordChar, halpha, hne '_' rfl]
  simp [start, hblank, hne '\'' rfl, hword, h]

theorem scan_between_digits {v : List Char} (hne : v ≠ []) (h : ∀ c ∈ v, c.isDigit = true) :
    scan .between v = ([], .digits v) := by
  match v, hne with
  | c :: rest, _ =>
    rw [List.forall_mem_cons] at h
    have hone : scan .between (c :: rest) = scan (.digits [c]) rest := by
      simp [scan, step, start_digit h.1]
    rw [hone, scan_digits _ _ h.2]
    rfl

/-! ## What a text put into a literal is read as -/

/-- The tokens of a text from a mode on. -/
def lexFrom (m : Mode) (text : List Char) : Option (List Token) :=
  (finish (scan m text).2).map ((scan m text).1 ++ ·)

theorem lex_eq_lexFrom (text : List Char) : lex text = lexFrom .between text := rfl

theorem lexFrom_append (m : Mode) (xs ys : List Char) :
    lexFrom m (xs ++ ys) = (lexFrom (scan m xs).2 ys).map ((scan m xs).1 ++ ·) := by
  unfold lexFrom
  rw [scan_append, Option.map_map]
  simp only [List.append_assoc]
  rfl

theorem lexFrom_cons (m : Mode) (c : Char) (rest : List Char) :
    lexFrom m (c :: rest) = (lexFrom (step m c).2 rest).map ((step m c).1 ++ ·) := by
  rw [← List.singleton_append, lexFrom_append]
  simp only [scan, List.append_nil]

/-- The first literal of a text tells what the text begins with: its escape, and the quote that
    closes it. -/
theorem eq_escape_of_lexFrom_literal :
    ∀ (s acc v : List Char) (ts : List Token), lexFrom (.literal acc) s = some (.literal v :: ts) →
      ∃ w rest, v = acc ++ w ∧ s = escape w ++ '\'' :: rest
  | [], acc, v, ts, h => by cases h
  | c :: s, acc, v, ts, h => by
    rw [lexFrom_cons] at h
    by_cases hc : c = '\''
    · subst hc
      match s with
      | [] =>
        obtain ⟨rfl, -⟩ : acc = v ∧ [] = ts := by simpa [step, lexFrom, scan, finish] using h
        exact ⟨[], [], by simp, rfl⟩
      | d :: s =>
        rw [show (step (.literal acc) '\'') = ([], .quote acc) from rfl, lexFrom_cons] at h
        by_cases hd : d = '\''
        · -- Two quotes are one of the literal.
          subst hd
          have h : lexFrom (.literal (acc ++ ['\''])) s = some (.literal v :: ts) := by
            simpa [step] using h
          obtain ⟨w, rest, rfl, rfl⟩ := eq_escape_of_lexFrom_literal s _ v ts h
          exact ⟨'\'' :: w, rest, by simp, by rw [escape_cons_quote]; rfl⟩
        · have hv : acc = v := by
            simp only [step, if_neg hd, List.nil_append, Option.map_map, Option.map_eq_some_iff,
              Function.comp_apply, List.cons_append, List.cons.injEq, Token.literal.injEq] at h
            obtain ⟨-, -, hv, -⟩ := h
            exact hv
          exact ⟨[], d :: s, by simp [hv], rfl⟩
    · have h : lexFrom (.literal (acc ++ [c])) s = some (.literal v :: ts) := by
        simpa [step, hc] using h
      obtain ⟨w, rest, rfl, rfl⟩ := eq_escape_of_lexFrom_literal s _ v ts h
      exact ⟨c :: w, rest, by simp, by rw [escape_cons_of_ne hc]; rfl⟩

/-- A text that ends before a single quote has not the quotes doubled, shifted by one or more. -/
theorem append_ne_replicate_escape (b rest rest' : List Char) {d : Char} (hd : d ≠ '\'') (k : ℕ) :
    b ++ '\'' :: d :: rest ≠ List.replicate (k + 1) '\'' ++ (escape b ++ '\'' :: rest') := by
  induction b generalizing k with
  | nil =>
      intro h
      rw [List.replicate_succ, List.cons_append, List.nil_append, List.cons.injEq] at h
      cases k with
      | zero => exact hd (List.cons.inj h.2).1
      | succ k => exact hd (List.cons.inj h.2).1
  | cons c b ih =>
      intro h
      rw [List.replicate_succ, List.cons_append, List.cons_append, List.cons.injEq] at h
      obtain ⟨rfl, h⟩ := h
      -- The quote is doubled on the right, so the right is ahead by one more.
      refine ih (k + 1) ?_
      rw [h, escape_cons_quote, List.replicate_succ', List.replicate_succ']
      simp

/-- A text put between quotes as it is ends where it should only if it has no quote. -/
theorem not_mem_of_append_eq_escape {v rest rest' : List Char} {d : Char} (hd : d ≠ '\'')
    (h : v ++ '\'' :: d :: rest = escape v ++ '\'' :: rest') : '\'' ∉ v := by
  induction v with
  | nil => exact List.not_mem_nil
  | cons c v ih =>
      by_cases hc : c = '\''
      · subst hc
        rw [escape_cons_quote, List.cons_append, List.cons_append, List.cons.injEq] at h
        exact absurd h.2 (append_ne_replicate_escape v rest rest' hd 0)
      · rw [escape_cons_of_ne hc, List.cons_append, List.cons_append, List.cons.injEq] at h
        rw [List.mem_cons, not_or]
        exact ⟨Ne.symm hc, ih h.2⟩

/-! ## Conditions -/

/-- A comparison of a column with a constant. -/
inductive Comparison
  | eq (column value : List Char)
  | ge (column : List Char) (value : ℕ)
  | le (column : List Char) (value : ℕ)
deriving DecidableEq

/-- The number of decimal digits. -/
def number (digits : List Char) : ℕ := Nat.ofDigitChars 10 digits 0

/-- A conjunction of comparisons. -/
def conjunction : List Token → Option (List Comparison)
  | [.word c, .symbol '=', .literal v] => some [.eq c v]
  | [.word c, .symbol '>', .symbol '=', .digits n] => some [.ge c (number n)]
  | [.word c, .symbol '<', .symbol '=', .digits n] => some [.le c (number n)]
  | .word c :: .symbol '=' :: .literal v :: .word ['a', 'n', 'd'] :: rest =>
    (conjunction rest).map (.eq c v :: ·)
  | .word c :: .symbol '>' :: .symbol '=' :: .digits n :: .word ['a', 'n', 'd'] :: rest =>
    (conjunction rest).map (.ge c (number n) :: ·)
  | .word c :: .symbol '<' :: .symbol '=' :: .digits n :: .word ['a', 'n', 'd'] :: rest =>
    (conjunction rest).map (.le c (number n) :: ·)
  | _ => none

/-- The comparisons a text stands for. -/
def read (text : List Char) : Option (List Comparison) := lex text >>= conjunction

/-- A conjunction whose first comparison is with a literal begins with it. -/
theorem eq_literal_of_conjunction {c c' v : List Char} {ts : List Token} {cs : List Comparison}
    (h : conjunction (.word c :: .symbol '=' :: ts) = some (.eq c' v :: cs)) :
    ∃ ts', ts = .literal v :: ts' := by
  match ts with
  | [] => cases h
  | .literal w :: ts' =>
    have hw : w = v := by
      unfold conjunction at h
      split at h <;> grind [Option.map_eq_some_iff]
    exact ⟨ts', by rw [hw]⟩
  | .word w :: ts' => cases h
  | .digits w :: ts' => cases h
  | .symbol w :: ts' => cases h

/-! ## What a condition selects -/

/-- The columns of a table, and what a row has in them. -/
structure Columns (ρ : Type*) where
  text : List Char → Option (ρ → List Char)
  number : List Char → Option (ρ → ℕ)

variable {ρ : Type*}

/-- The rows a comparison selects; `none` for a column there is not. -/
def Comparison.selects (columns : Columns ρ) : Comparison → Option (ρ → Bool)
  | .eq c v => (columns.text c).map fun f r => f r == v
  | .ge c n => (columns.number c).map fun f r => n ≤ f r
  | .le c n => (columns.number c).map fun f r => f r ≤ n

/-- The rows for which all comparisons hold; a column the table does not have is an error. -/
def selection (columns : Columns ρ) : List Comparison → Option (ρ → Bool)
  | [] => some fun _ => true
  | c :: cs => do
    let p ← c.selects columns
    let q ← selection columns cs
    return fun r => p r && q r

theorem selection_cons {columns : Columns ρ} {c : Comparison} {cs : List Comparison}
    {p q : ρ → Bool} (hp : c.selects columns = some p) (hq : selection columns cs = some q) :
    selection columns (c :: cs) = some fun r => p r && q r := by
  rw [selection, hp, hq]
  rfl

/-- Something that answers conditions, those outside of the conjunctions as it likes. -/
structure Engine (columns : Columns ρ) where
  selects : List Char → Option (ρ → Bool)
  selects_of_read : ∀ {text cs}, read text = some cs → selects text = selection columns cs

/-- The engine that knows conjunctions only. -/
def Engine.conjunctions (columns : Columns ρ) : Engine columns where
  selects text := (read text).bind (selection columns)
  selects_of_read h := by rw [h]; rfl

end Sql
