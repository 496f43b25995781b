/-
  OwAnalytics.Lib.SqlTests

  A wider reader of SQL conditions: conjunctions of tests that may stand in parentheses,
  over columns whose names are compared without regard to letter case.  A text with its
  quotes doubled is one literal between quotes, whatever follows that is no quote.
-/

import OwAnalytics.Lib.Sql

namespace Sql

/-! ## One literal -/

/-- Between its quotes the text is a literal that a further quote would go on with. -/
theorem scan_quoted (v : List Char) :
    scan .between ('\'' :: (escape v ++ ['\''])) = ([], .quote v) := by
  have hopen : scan .between ['\''] = ([], .literal []) := rfl
  have hclose : scan (.literal v) ['\''] = ([], .quote v) := rfl
  have htext : '\'' :: (escape v ++ ['\'']) = ['\''] ++ (escape v ++ ['\'']) := rfl
  rw [htext, scan_append, hopen, scan_append, scan_escape]
  exact hclose

/-- Anything but a quote ends the literal, and is read as it is outside of one. -/
theorem lexFrom_quote {v rest : List Char} (h : rest.head? ≠ some '\'') :
    lexFrom (.quote v) rest = (lex rest).map (.literal v :: ·) := by
  cases rest with
  | nil => rfl
  | cons c rest =>
      have hc : c ≠ '\'' := by
        rintro rfl
        exact h rfl
      have hquote : step (.quote v) c = (.literal v :: (start c).1, (start c).2) := by
        rw [step, if_neg hc]
      rw [lex_eq_lexFrom, lexFrom_cons, lexFrom_cons, hquote, Option.map_map]
      rfl

/-- The lexer takes the quoted text for one literal, and starts anew behind it. -/
theorem lex_quoted (v : List Char) {rest : List Char} (h : rest.head? ≠ some '\'') :
    lex ('\'' :: (escape v ++ '\'' :: rest)) = (lex rest).map (.literal v :: ·) := by
  have htext : '\'' :: (escape v ++ '\'' :: rest) = '\'' :: (escape v ++ ['\'']) ++ rest := by
    rw [List.cons_append, List.append_assoc]
    rfl
  rw [htext, lex_eq_lexFrom, lexFrom_append, scan_quoted]
  show (lexFrom (.quote v) rest).map _ = _
  rw [lexFrom_quote h, Option.map_map]
  rfl

/-- Two texts with the same escape are read as the same literal. -/
theorem escape_injective : Function.Injective escape := by
  intro v w h
  have hv := scan_escape [] v
  rw [h, scan_escape] at hv
  have hmode := (Prod.mk.inj hv).2
  rw [List.nil_append, List.nil_append, Mode.literal.injEq] at hmode
  exact hmode.symm

/-! ## Words -/

/-- A name that the lexer reads as one word. -/
structure IsWord (name : List Char) : Prop where
  head : ∃ c ∈ name.head?, isWordChar c = true
  tail : ∀ c ∈ name.tail, (isWordChar c || c.isDigit) = true

theorem start_wordChar {c : Char} (h : isWordChar c = true) : start c = ([], .word [c]) := by
  have hne : ∀ d : Char, isWordChar d = false → c ≠ d := by
    rintro d hd rfl
    rw [h] at hd
    cases hd
  have hblank : isBlank c = false := by
    simp [isBlank, hne ' ' rfl, hne '\t' rfl, hne '\n' rfl, hne '\r' rfl]
  simp [start, hblank, hne '\'' rfl, h]

theorem scan_word (s v : List Char) (h : ∀ c ∈ v, (isWordChar c || c.isDigit) = true) :
    scan (.word s) v = ([], .word (s ++ v)) := by
  induction v generalizing s with
  | nil => rw [List.append_nil]; rfl
  | cons c rest ih =>
      rw [List.forall_mem_cons] at h
      have hone : scan (.word s) (c :: rest) = scan (.word (s ++ [c])) rest := by
        rw [scan, step, if_pos h.1, List.nil_append]
      rw [hone, ih _ h.2, List.append_assoc]
      rfl

theorem IsWord.scan_eq {name : List Char} (h : IsWord name) :
    scan .between name = ([], .word name) := by
  cases name with
  | nil =>
      obtain ⟨c, hc, -⟩ := h.head
      cases hc
  | cons c rest =>
      obtain ⟨d, hd, hword⟩ := h.head
      obtain rfl : c = d := Option.some.inj hd
      have hone : scan .between (c :: rest) = scan (.word [c]) rest := by
        rw [scan, step, start_wordChar hword, List.nil_append]
      rw [hone]
      exact scan_word [c] rest h.tail

/-- A capital is moved by 32, anything else stays. -/
theorem toLower_cases (c : Char) :
    (65 ≤ c.toNat ∧ c.toNat ≤ 90 ∧ c.toLower.toNat = c.toNat + 32) ∨ c.toLower = c := by
  unfold Char.toLower
  split
  · rename_i h
    left
    have hA : 'A'.val.toNat = 65 := rfl
    have hZ : 'Z'.val.toNat = 90 := rfl
    have hmove : ('a'.val - 'A'.val).toNat = 32 := rfl
    rw [ge_iff_le, UInt32.le_iff_toNat_le, UInt32.le_iff_toNat_le, hA, hZ] at h
    refine ⟨h.1, h.2, ?_⟩
    show (c.val + ('a'.val - 'A'.val)).toNat = c.val.toNat + 32
    rw [UInt32.toNat_add, hmove]
    omega
  · exact .inr rfl

theorem isAlpha_iff {c : Char} :
    c.isAlpha = true ↔ (65 ≤ c.toNat ∧ c.toNat ≤ 90) ∨ (97 ≤ c.toNat ∧ c.toNat ≤ 122) := by
  simp [Char.isAlpha, Char.isUpper, Char.isLower, UInt32.le_iff_toNat_le, ← Char.toNat_val]

theorem isDigit_iff {c : Char} : c.isDigit = true ↔ 48 ≤ c.toNat ∧ c.toNat ≤ 57 := by
  simp [Char.isDigit, UInt32.le_iff_toNat_le, ← Char.toNat_val]

/-- Words are words in any letter case. -/
theorem isWordChar_toLower (c : Char) : isWordChar c.toLower = isWordChar c := by
  rcases toLower_cases c with ⟨hlo, hhi, hlower⟩ | hsame
  · have hc : c.isAlpha = true := isAlpha_iff.mpr (.inl ⟨hlo, hhi⟩)
    have hd : c.toLower.isAlpha = true := isAlpha_iff.mpr (.inr (by omega))
    rw [isWordChar, isWordChar, hc, hd, Bool.true_or, Bool.true_or]
  · rw [hsame]

theorem isDigit_toLower (c : Char) : c.toLower.isDigit = c.isDigit := by
  rcases toLower_cases c with ⟨hlo, hhi, hlower⟩ | hsame
  · rw [Bool.eq_iff_iff, isDigit_iff, isDigit_iff]
    omega
  · rw [hsame]

theorem isWord_toLower {name : List Char} : IsWord (name.map Char.toLower) ↔ IsWord name := by
  cases name with
  | nil => rfl
  | cons c rest =>
      constructor
      · rintro ⟨⟨d, hd, hword⟩, htail⟩
        obtain rfl : c.toLower = d := Option.some.inj hd
        rw [isWordChar_toLower] at hword
        refine ⟨⟨c, rfl, hword⟩, fun e he => ?_⟩
        have h := htail e.toLower (List.mem_map_of_mem he)
        rwa [isWordChar_toLower, isDigit_toLower] at h
      · rintro ⟨⟨d, hd, hword⟩, htail⟩
        obtain rfl : c = d := Option.some.inj hd
        refine ⟨⟨c.toLower, rfl, by rwa [isWordChar_toLower]⟩, fun e he => ?_⟩
        obtain ⟨e', he', rfl⟩ := List.mem_map.mp he
        rw [isWordChar_toLower, isDigit_toLower]
        exact htail e' he'

/-! ## Tests -/

/-- A test of a column against a constant. -/
inductive Test
  | is (column value : List Char)
  | atLeast (column : List Char) (value : ℕ)
  | atMost (column : List Char) (value : ℕ)
  | below (column : List Char) (value : ℕ)
deriving DecidableEq

/-- A test at the start of the tokens, and what follows it. -/
def test : List Token → Option (Test × List Token)
  | .word c :: .symbol '=' :: .literal v :: rest => some (.is c v, rest)
  | .word c :: .symbol '>' :: .symbol '=' :: .digits n :: rest => some (.atLeast c (number n), rest)
  | .word c :: .symbol '<' :: .symbol '=' :: .digits n :: rest => some (.atMost c (number n), rest)
  | .word c :: .symbol '<' :: .digits n :: rest => some (.below c (number n), rest)
  | _ => none

/-- A test, or one in parentheses. -/
def grouped : List Token → Option (Test × List Token)
  | .symbol '(' :: rest =>
    match test rest with
    | some (t, .symbol ')' :: rest) => some (t, rest)
    | _ => none
  | tokens => test tokens

/-- At most so many tests with `and` between them. -/
def tests : ℕ → List Token → Option (List Test)
  | 0, _ => none
  | fuel + 1, tokens =>
    match grouped tokens with
    | some (t, []) => some [t]
    | some (t, .word ['a', 'n', 'd'] :: rest) => (tests fuel rest).map (t :: ·)
    | _ => none

/-- The tests a text stands for; there are no more of them than tokens. -/
def readTests (text : List Char) : Option (List Test) :=
  (lex text).bind fun tokens => tests tokens.length tokens

/-- Tests that begin with an equality compare with a literal. -/
theorem exists_literal_of_tests {fuel : ℕ} {c : List Char} {tokens : List Token} {ts : List Test}
    (h : tests fuel (.word c :: .symbol '=' :: tokens) = some ts) :
    ∃ v rest ts', tokens = .literal v :: rest ∧ ts = .is c v :: ts' := by
  cases fuel with
  | zero => cases h
  | succ fuel =>
      cases tokens with
      | nil => cases h
      | cons token rest =>
          -- only a literal may follow the equals sign
          cases token with
          | literal v =>
              refine ⟨v, rest, ?_⟩
              have hfirst : grouped (.word c :: .symbol '=' :: .literal v :: rest) =
                  some (.is c v, rest) := rfl
              rw [tests, hfirst] at h
              split at h
              · rename_i hgrouped
                obtain ⟨rfl, -⟩ := Prod.mk.inj (Option.some.inj hgrouped)
                exact ⟨[], rfl, (Option.some.inj h).symm⟩
              · rename_i hgrouped
                obtain ⟨rfl, -⟩ := Prod.mk.inj (Option.some.inj hgrouped)
                obtain ⟨ts', -, rfl⟩ := Option.map_eq_some_iff.mp h
                exact ⟨ts', rfl, rfl⟩
              · cases h
          | word s => cases h
          | digits s => cases h
          | symbol s => cases h

/-! ## What they select -/

variable {ρ : Type*}

/-- The rows that pass a test; a column the table does not have is an error. -/
def Test.selects (columns : Columns ρ) : Test → Option (ρ → Bool)
  | .is c v => (columns.text (c.map Char.toLower)).map fun f r => f r == v
  | .atLeast c n => (columns.number (c.map Char.toLower)).map fun f r => n ≤ f r
  | .atMost c n => (columns.number (c.map Char.toLower)).map fun f r => f r ≤ n
  | .below c n => (columns.number (c.map Char.toLower)).map fun f r => f r < n

/-- The rows that pass all tests. -/
def passing (columns : Columns ρ) : List Test → Option (ρ → Bool)
  | [] => some fun _ => true
  | t :: ts =>
    (t.selects columns).bind fun p => (passing columns ts).map fun q r => p r && q r

/-- The rows a condition selects. -/
def selected (columns : Columns ρ) (text : List Char) : Option (ρ → Bool) :=
  (readTests text).bind (passing columns)

end Sql
