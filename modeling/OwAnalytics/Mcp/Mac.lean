/-
  OwAnalytics.Mcp.Mac

  `NormalizeClientMac` (`RESTAPI/RESTAPI_mcp_helpers.h`): the three accepted
  spellings of a client MAC and the canonical one they are rewritten to.
-/

import OwAnalytics.Objects

namespace OwAnalytics.Mcp

/-- `std::isxdigit` in the C locale. -/
def isHex (c : Char) : Bool :=
  ('0' ≤ c && c ≤ '9') || ('a' ≤ c && c ≤ 'f') || ('A' ≤ c && c ≤ 'F')

/-- `std::tolower` in the C locale. -/
def lowerHex (c : Char) : Char := c.toLower

/-- The `Format` lambda: pairs joined by colons. -/
def formatPairs (formatted : Str) : Str → Str
  | [] => formatted
  | [c] => separated ++ [c]
  | c :: d :: rest => formatPairs (separated ++ [c, d]) rest
where
  separated : Str := if formatted.isEmpty then formatted else formatted ++ [':']

/-- The loop over a 17-character spelling: every third character is the separator. -/
def cleanSeparated (separator : Char) (i : Nat) (clean : Str) : Str → Option Str
  | [] => some clean
  | c :: rest =>
    if (i + 1) % 3 = 0 then
      if c ≠ separator then none else cleanSeparated separator (i + 1) clean rest
    else if isHex c then cleanSeparated separator (i + 1) (clean ++ [lowerHex c]) rest
    else none

/-- The loop over a 14-character spelling, which skips the two dots. -/
def cleanDotted (i : Nat) (clean : Str) : Str → Option Str
  | [] => some clean
  | c :: rest =>
    if i = 4 ∨ i = 9 then cleanDotted (i + 1) clean rest
    else if isHex c then cleanDotted (i + 1) (clean ++ [lowerHex c]) rest
    else none

/-- The loop over a 12-character spelling. -/
def cleanPlain (clean : Str) : Str → Option Str
  | [] => some clean
  | c :: rest => if isHex c then cleanPlain (clean ++ [lowerHex c]) rest else none

/-- `NormalizeClientMac`. -/
def normalizeClientMac (rawMac : Str) : Option Str :=
  if rawMac.length = 17 ∧ (rawMac[2]? = some ':' ∨ rawMac[2]? = some '-') then
    (cleanSeparated (rawMac.getD 2 ':') 0 [] rawMac).map (formatPairs [])
  else if rawMac.length = 14 ∧ rawMac[4]? = some '.' ∧ rawMac[9]? = some '.' then
    (cleanDotted 0 [] rawMac).map (formatPairs [])
  else if rawMac.length = 12 then
    (cleanPlain [] rawMac).map (formatPairs [])
  else none

example : normalizeClientMac "E2-51-95-ed-0F-28".toList = some "e2:51:95:ed:0f:28".toList := by
  decide

/-! ## The canonical spelling -/

/-- A hex digit that is not an upper-case letter. -/
def LowerHex (c : Char) : Prop := isHex c = true ∧ lowerHex c = c

/-- Every hex digit is rewritten to such a one. -/
theorem lowerHex_of_isHex {c : Char} (h : isHex c = true) : LowerHex (lowerHex c) := by
  have htable : ∀ n < 103, isHex (Char.ofNat n) = true →
      isHex (lowerHex (Char.ofNat n)) = true ∧
        lowerHex (lowerHex (Char.ofNat n)) = lowerHex (Char.ofNat n) := by
    decide
  have hlt : c.toNat < 103 := by
    simp only [isHex, Bool.or_eq_true, Bool.and_eq_true, decide_eq_true_eq, Char.le_def] at h
    have hval : c.toNat = c.val.toNat := rfl
    rcases h with (⟨-, h⟩ | ⟨-, h⟩) | ⟨-, h⟩
    all_goals
      have hle := UInt32.le_iff_toNat_le.mp h
      simp at hle
      omega
  have hrow := htable c.toNat hlt
  rw [Char.ofNat_toNat] at hrow
  exact hrow h

/-- One more digit keeps the cleaned text in lower case. -/
theorem forall_lowerHex_concat {clean : Str} (hclean : ∀ c ∈ clean, LowerHex c) {c : Char}
    (hc : isHex c = true) : ∀ x ∈ clean ++ [lowerHex c], LowerHex x := by
  intro x hx
  rcases List.mem_append.mp hx with hx | hx
  · exact hclean x hx
  · obtain rfl := List.mem_singleton.mp hx
    exact lowerHex_of_isHex hc

/-- Up to position `n`, `n / 3` characters are separators. -/
theorem cleanSeparated_eq_some {separator : Char} {raw : Str} {i : Nat} {clean out : Str}
    (h : cleanSeparated separator i clean raw = some out) (hclean : ∀ c ∈ clean, LowerHex c) :
    (∀ c ∈ out, LowerHex c) ∧
      out.length + (i + raw.length) / 3 = clean.length + raw.length + i / 3 := by
  induction raw generalizing i clean with
  | nil =>
      obtain rfl := Option.some.inj h
      exact ⟨hclean, rfl⟩
  | cons c rest ih =>
      rw [cleanSeparated] at h
      -- each third place is a separator and is passed over, all others are kept
      split_ifs at h with hpos hsep hhex
      · obtain ⟨hout, hlen⟩ := ih h hclean
        refine ⟨hout, ?_⟩
        rw [List.length_cons]
        omega
      · obtain ⟨hout, hlen⟩ := ih h (forall_lowerHex_concat hclean hhex)
        refine ⟨hout, ?_⟩
        rw [List.length_append, List.length_singleton] at hlen
        rw [List.length_cons]
        omega

/-- The characters at 4 and 9 are skipped. -/
theorem cleanDotted_eq_some {raw : Str} {i : Nat} {clean out : Str}
    (h : cleanDotted i clean raw = some out) (hclean : ∀ c ∈ clean, LowerHex c) :
    (∀ c ∈ out, LowerHex c) ∧
      out.length + (Finset.filter (fun j => j = 4 ∨ j = 9)
        (Finset.Ico i (i + raw.length))).card = clean.length + raw.length := by
  induction raw generalizing i clean with
  | nil =>
      obtain rfl := Option.some.inj h
      exact ⟨hclean, by simp⟩
  | cons c rest ih =>
      -- The position `i` is the first of those left, and is counted apart.
      have hIco : Finset.Ico i (i + (c :: rest).length)
          = insert i (Finset.Ico (i + 1) (i + 1 + rest.length)) := by
        ext j
        simp only [List.length_cons, Finset.mem_Ico, Finset.mem_insert]
        omega
      have hnot : i ∉ Finset.filter (fun j => j = 4 ∨ j = 9)
          (Finset.Ico (i + 1) (i + 1 + rest.length)) := by
        simp
      rw [cleanDotted] at h
      rw [hIco, Finset.filter_insert]
      split_ifs at h with hpos hhex
      · obtain ⟨hout, hlen⟩ := ih h hclean
        refine ⟨hout, ?_⟩
        rw [if_pos hpos, Finset.card_insert_of_notMem hnot, List.length_cons]
        omega
      · obtain ⟨hout, hlen⟩ := ih h (forall_lowerHex_concat hclean hhex)
        refine ⟨hout, ?_⟩
        rw [List.length_append, List.length_singleton] at hlen
        rw [if_neg hpos, List.length_cons]
        omega

theorem cleanPlain_eq_some {raw : Str} {clean out : Str}
    (h : cleanPlain clean raw = some out) (hclean : ∀ c ∈ clean, LowerHex c) :
    (∀ c ∈ out, LowerHex c) ∧ out.length = clean.length + raw.length := by
  induction raw generalizing clean with
  | nil =>
      obtain rfl := Option.some.inj h
      exact ⟨hclean, rfl⟩
  | cons c rest ih =>
      rw [cleanPlain] at h
      split_ifs at h with hhex
      obtain ⟨hout, hlen⟩ := ih h (forall_lowerHex_concat hclean hhex)
      refine ⟨hout, ?_⟩
      rw [List.length_append, List.length_singleton] at hlen
      rw [List.length_cons]
      omega

/-- A normalized MAC is six pairs of lower-case digits. -/
theorem exists_of_normalizeClientMac {rawMac mac : Str} (h : normalizeClientMac rawMac = some mac) :
    ∃ clean : Str, clean.length = 12 ∧ (∀ c ∈ clean, LowerHex c) ∧ mac = formatPairs [] clean := by
  have hempty : ∀ c ∈ ([] : Str), LowerHex c := fun c hc => absurd hc List.not_mem_nil
  unfold normalizeClientMac at h
  split_ifs at h with hsep hdot hplain
  · obtain ⟨clean, hclean, rfl⟩ := Option.map_eq_some_iff.mp h
    obtain ⟨hlower, hlen⟩ := cleanSeparated_eq_some hclean hempty
    refine ⟨clean, ?_, hlower, rfl⟩
    rw [hsep.1, List.length_nil] at hlen
    omega
  · obtain ⟨clean, hclean, rfl⟩ := Option.map_eq_some_iff.mp h
    obtain ⟨hlower, hlen⟩ := cleanDotted_eq_some hclean hempty
    refine ⟨clean, ?_, hlower, rfl⟩
    have hskipped : (Finset.filter (fun j => j = 4 ∨ j = 9) (Finset.Ico 0 (0 + 14))).card = 2 := by
      decide
    rw [hdot.1, hskipped, List.length_nil] at hlen
    omega
  · obtain ⟨clean, hclean, rfl⟩ := Option.map_eq_some_iff.mp h
    obtain ⟨hlower, hlen⟩ := cleanPlain_eq_some hclean hempty
    refine ⟨clean, ?_, hlower, rfl⟩
    rw [hplain, List.length_nil] at hlen
    omega

/-- A normalized MAC is its own normal form. -/
theorem normalizeClientMac_idem {rawMac mac : Str} (h : normalizeClientMac rawMac = some mac) :
    normalizeClientMac mac = some mac := by
  obtain ⟨clean, hlen, hlower, rfl⟩ := exists_of_normalizeClientMac h
  match clean, hlen with
  | [a, b, c, d, e, f, g, h, i, j, k, l], _ =>
    simp only [List.mem_cons, List.not_mem_nil, or_false, forall_eq_or_imp, forall_eq,
      LowerHex] at hlower
    simp [normalizeClientMac, formatPairs, formatPairs.separated, cleanSeparated, hlower]

end OwAnalytics.Mcp
