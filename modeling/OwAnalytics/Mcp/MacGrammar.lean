/-
  OwAnalytics.Mcp.MacGrammar

  The language `NormalizeClientMac` accepts.  An address is twelve hex digits; a
  spelling of it writes them in groups of equal width, joined by one separator, or
  in one piece.  The loops of the function read a text group by group, so each of
  them is described by what it does with one group.
-/

import OwAnalytics.Mcp.Mac

namespace OwAnalytics.Mcp

/-! ## Groups joined by a separator -/

/-- The text `s` is `digits`, cut into `count` groups of `width`, joined by the separator. -/
def JoinedBy (separator : Char) (count width : ℕ) (digits s : Str) : Prop :=
  ∃ groups : List Str, groups.length = count ∧ (∀ g ∈ groups, g.length = width) ∧
    groups.flatten = digits ∧ [separator].intercalate groups = s

theorem joinedBy_one_iff {separator : Char} {width : ℕ} {digits s : Str} :
    JoinedBy separator 1 width digits s ↔ digits.length = width ∧ s = digits := by
  refine ⟨?_, ?_⟩
  · rintro ⟨groups, hcount, hwidth, rfl, rfl⟩
    obtain ⟨g, rfl⟩ := List.length_eq_one_iff.mp hcount
    have hg := hwidth g (List.mem_singleton_self g)
    simp [hg]
  · rintro ⟨hlen, rfl⟩
    exact ⟨[s], rfl, by simpa using hlen, by simp, by simp⟩

/-- The first of several groups and the separator behind it. -/
theorem joinedBy_succ_iff {separator : Char} {count width : ℕ} {digits s : Str} :
    JoinedBy separator (count + 2) width digits s ↔
      ∃ g digits' s', g.length = width ∧ digits = g ++ digits' ∧ s = g ++ separator :: s' ∧
        JoinedBy separator (count + 1) width digits' s' := by
  refine ⟨?_, ?_⟩
  · rintro ⟨groups, hcount, hwidth, rfl, rfl⟩
    match groups, hcount with
    | g :: h :: rest, hcount =>
      refine ⟨g, (h :: rest).flatten, [separator].intercalate (h :: rest),
        hwidth g List.mem_cons_self, rfl, ?_, h :: rest, ?_, ?_, rfl, rfl⟩
      · simp [List.intercalate]
      · simpa using hcount
      · exact fun x hx => hwidth x (List.mem_cons_of_mem _ hx)
  · rintro ⟨g, _, _, hg, rfl, rfl, groups, hcount, hwidth, rfl, rfl⟩
    match groups, hcount with
    | h :: rest, hcount =>
      refine ⟨g :: h :: rest, ?_, ?_, rfl, ?_⟩
      · simpa using hcount
      · exact List.forall_mem_cons.mpr ⟨hg, hwidth⟩
      · simp [List.intercalate]

theorem JoinedBy.length {separator : Char} {count width : ℕ} {digits s : Str}
    (h : JoinedBy separator (count + 1) width digits s) :
    digits.length = (count + 1) * width ∧ s.length = (count + 1) * width + count := by
  induction count generalizing digits s with
  | zero =>
      obtain ⟨hlen, rfl⟩ := joinedBy_one_iff.mp h
      simp [hlen]
  | succ count ih =>
      obtain ⟨g, digits', s', hg, rfl, rfl, hrest⟩ := joinedBy_succ_iff.mp h
      obtain ⟨hdigits, hs⟩ := ih hrest
      rw [List.length_append, List.length_append, List.length_cons, hdigits, hs, hg]
      constructor <;> ring

/-- The separator stands behind the first group. -/
theorem JoinedBy.getElem?_width {separator : Char} {count width : ℕ} {digits s : Str}
    (h : JoinedBy separator (count + 2) width digits s) : s[width]? = some separator := by
  obtain ⟨g, -, s', rfl, -, rfl, -⟩ := joinedBy_succ_iff.mp h
  rw [List.getElem?_append_right le_rfl, Nat.sub_self]
  rfl

/-- A separator that is no digit can be read out of the text again. -/
theorem JoinedBy.filter_eq {separator : Char} {count width : ℕ} {digits s : Str}
    (h : JoinedBy separator (count + 1) width digits s) {p : Char → Bool}
    (hsep : p separator = false) (hdigits : ∀ c ∈ digits, p c = true) : s.filter p = digits := by
  induction count generalizing digits s with
  | zero =>
      obtain ⟨-, rfl⟩ := joinedBy_one_iff.mp h
      exact List.filter_eq_self.mpr hdigits
  | succ count ih =>
      obtain ⟨g, digits', s', -, rfl, rfl, hrest⟩ := joinedBy_succ_iff.mp h
      rw [List.filter_append, List.filter_cons_of_neg (by simp [hsep]),
        ih hrest fun c hc => hdigits c (List.mem_append_right _ hc),
        List.filter_eq_self.mpr fun c hc => hdigits c (List.mem_append_left _ hc)]

/-! ## The loops -/

/-- `Clean` after the digits of a piece of text were appended to it. -/
def appendLower (clean digits : Str) : Str := clean ++ digits.map lowerHex

theorem appendLower_append (clean a b : Str) :
    appendLower (appendLower clean a) b = appendLower clean (a ++ b) := by
  simp [appendLower]

/-- One pair and the separator behind it. -/
theorem cleanSeparated_triple {separator : Char} {i : ℕ} (hi : i % 3 = 0) (clean : Str)
    (c d x : Char) (rest : Str) :
    cleanSeparated separator i clean (c :: d :: x :: rest)
      = if (isHex c ∧ isHex d) ∧ x = separator then
          cleanSeparated separator (i + 3) (appendLower clean [c, d]) rest
        else none := by
  have h0 : (i + 1) % 3 ≠ 0 := by omega
  have h1 : (i + 1 + 1) % 3 ≠ 0 := by omega
  have h2 : (i + 1 + 1 + 1) % 3 = 0 := by omega
  rw [cleanSeparated, if_neg h0, cleanSeparated, if_neg h1, cleanSeparated, if_pos h2]
  by_cases hc : isHex c = true
  · by_cases hd : isHex d = true
    · by_cases hx : x = separator
      · simp [hc, hd, hx, appendLower]
      · simp [hc, hd, hx]
    · simp [hd]
  · simp [hc]

/-- The last pair. -/
theorem cleanSeparated_pair {separator : Char} {i : ℕ} (hi : i % 3 = 0) (clean : Str)
    (c d : Char) :
    cleanSeparated separator i clean [c, d]
      = if isHex c ∧ isHex d then some (appendLower clean [c, d]) else none := by
  have h0 : (i + 1) % 3 ≠ 0 := by omega
  have h1 : (i + 1 + 1) % 3 ≠ 0 := by omega
  rw [cleanSeparated, if_neg h0, cleanSeparated, if_neg h1, cleanSeparated]
  by_cases hc : isHex c = true
  · simp [hc, appendLower]
  · simp [hc]

/-- The loop over pairs accepts what is joined by its separator. -/
theorem cleanSeparated_eq_some_iff {separator : Char} (count : ℕ) {i : ℕ} (hi : i % 3 = 0)
    {clean raw out : Str} (hlen : raw.length = (count + 1) * 2 + count) :
    cleanSeparated separator i clean raw = some out ↔
      ∃ digits, (∀ c ∈ digits, isHex c = true) ∧ JoinedBy separator (count + 1) 2 digits raw ∧
        out = appendLower clean digits := by
  -- On the number of pairs still to come after the first: the last pair has no separator.
  induction count generalizing i clean raw with
  | zero =>
      match raw, hlen with
      | [c, d], _ =>
        rw [cleanSeparated_pair hi, Option.ite_none_right_eq_some]
        simp only [Nat.zero_add, joinedBy_one_iff]
        refine ⟨?_, ?_⟩
        · rintro ⟨⟨hc, hd⟩, hout⟩
          exact ⟨[c, d], by simp [hc, hd], ⟨rfl, rfl⟩, (Option.some.inj hout).symm⟩
        · rintro ⟨_, hhex, ⟨-, rfl⟩, rfl⟩
          exact ⟨⟨hhex c (by simp), hhex d (by simp)⟩, rfl⟩
  | succ count ih =>
      have hthree : raw.length = (count + 1) * 2 + count + 3 := by omega
      match raw, hthree with
      | c :: d :: x :: rest, hthree =>
        have hrest : rest.length = (count + 1) * 2 + count := by
          simpa using hthree
        rw [cleanSeparated_triple hi, Option.ite_none_right_eq_some, ih (by omega) hrest]
        simp only [joinedBy_succ_iff]
        refine ⟨?_, ?_⟩
        · rintro ⟨⟨⟨hc, hd⟩, rfl⟩, digits, hhex, hjoined, rfl⟩
          refine ⟨[c, d] ++ digits, ?_, ⟨[c, d], digits, rest, rfl, rfl, rfl, hjoined⟩,
            appendLower_append clean [c, d] digits⟩
          simpa [hc, hd] using hhex
        · rintro ⟨_, hhex, ⟨g, digits, s', hg, rfl, hraw, hjoined⟩, rfl⟩
          -- The first group has two digits, so the pieces of the two readings agree.
          match g, hg with
          | [c', d'], _ =>
            obtain ⟨rfl, rfl, rfl, rfl⟩ : c = c' ∧ d = d' ∧ x = separator ∧ rest = s' := by
              simpa using hraw
            refine ⟨⟨⟨hhex c (by simp), hhex d (by simp)⟩, rfl⟩, digits, ?_, hjoined,
              (appendLower_append clean [c, d] digits).symm⟩
            exact fun y hy => hhex y (List.mem_append_right _ hy)

/-- A piece of a dotted spelling that no dot position cuts. -/
theorem cleanDotted_piece {i : ℕ} {g : Str} (hi : ∀ j, i ≤ j → j < i + g.length → j ≠ 4 ∧ j ≠ 9)
    (clean rest : Str) :
    cleanDotted i clean (g ++ rest)
      = if ∀ c ∈ g, isHex c = true then cleanDotted (i + g.length) (appendLower clean g) rest
        else none := by
  induction g generalizing i clean with
  | nil => simp [appendLower]
  | cons c g ih =>
      obtain ⟨h4, h9⟩ := hi i le_rfl (by simp)
      have hshift : i + 1 + g.length = i + (c :: g).length := by
        rw [List.length_cons]
        omega
      have hg := ih (i := i + 1) (fun j hj hlt => hi j (by omega) (by omega))
        (clean ++ [lowerHex c])
      rw [List.cons_append, cleanDotted, if_neg (by simp [h4, h9]), hg, hshift]
      by_cases hc : isHex c = true
      · simp [hc, appendLower]
      · simp [hc]

/-- The dot itself is passed over. -/
theorem cleanDotted_dot {i : ℕ} (hi : i = 4 ∨ i = 9) (clean : Str) (x : Char) (rest : Str) :
    cleanDotted i clean (x :: rest) = cleanDotted (i + 1) clean rest := by
  rw [cleanDotted, if_pos hi]

theorem cleanPlain_eq_some_iff {clean raw out : Str} :
    cleanPlain clean raw = some out ↔
      (∀ c ∈ raw, isHex c = true) ∧ out = appendLower clean raw := by
  induction raw generalizing clean with
  | nil =>
      rw [cleanPlain, Option.some.injEq]
      simp [appendLower, eq_comm (a := clean)]
  | cons c rest ih =>
      rw [cleanPlain, Option.ite_none_right_eq_some, ih]
      simp [appendLower, and_assoc]

/-- A text of fourteen characters with dots in their places is three groups of four. -/
theorem exists_groups {raw : Str} (hlen : raw.length = 14) (h4 : raw[4]? = some '.')
    (h9 : raw[9]? = some '.') :
    ∃ g₁ g₂ g₃ : Str, g₁.length = 4 ∧ g₂.length = 4 ∧ g₃.length = 4 ∧
      raw = g₁ ++ '.' :: (g₂ ++ '.' :: g₃) := by
  obtain ⟨hlt4, hdot4⟩ := List.getElem?_eq_some_iff.mp h4
  obtain ⟨hlt9, hdot9⟩ := List.getElem?_eq_some_iff.mp h9
  refine ⟨raw.take 4, (raw.drop 5).take 4, raw.drop 10, ?_, ?_, ?_, ?_⟩
  · rw [List.length_take]
    omega
  · rw [List.length_take, List.length_drop]
    omega
  · rw [List.length_drop]
    omega
  · have hrest : (raw.drop 5).drop 4 = raw.drop 9 := List.drop_drop
    have hmiddle : raw.drop 5 = (raw.drop 5).take 4 ++ raw.drop 9 := by
      rw [← hrest, List.take_append_drop]
    calc raw
        = raw.take 4 ++ raw.drop 4 := (List.take_append_drop 4 raw).symm
      _ = raw.take 4 ++ '.' :: raw.drop 5 := by rw [List.drop_eq_getElem_cons hlt4, hdot4]
      _ = _ := by
        conv_lhs => rw [hmiddle, List.drop_eq_getElem_cons hlt9, hdot9]

/-- The loop over a dotted spelling accepts three groups of four. -/
theorem cleanDotted_eq_some_iff {raw out : Str} (hlen : raw.length = 14)
    (h4 : raw[4]? = some '.') (h9 : raw[9]? = some '.') :
    cleanDotted 0 [] raw = some out ↔
      ∃ digits, (∀ c ∈ digits, isHex c = true) ∧ JoinedBy '.' 3 4 digits raw ∧
        out = appendLower [] digits := by
  obtain ⟨g₁, g₂, g₃, hg₁, hg₂, hg₃, rfl⟩ := exists_groups hlen h4 h9
  have hend : cleanDotted 0 [] (g₁ ++ '.' :: (g₂ ++ '.' :: g₃))
      = cleanDotted 0 [] (g₁ ++ '.' :: (g₂ ++ '.' :: (g₃ ++ []))) := by rw [List.append_nil]
  -- the loop reads one group after the other
  rw [hend, cleanDotted_piece (by omega), Option.ite_none_right_eq_some,
    cleanDotted_dot (by omega), cleanDotted_piece (by omega), Option.ite_none_right_eq_some,
    cleanDotted_dot (by omega), cleanDotted_piece (by omega), Option.ite_none_right_eq_some,
    appendLower_append, appendLower_append, cleanDotted, Option.some.injEq]
  refine ⟨?_, ?_⟩
  · rintro ⟨h1, h2, h3, rfl⟩
    refine ⟨g₁ ++ (g₂ ++ g₃), ?_, ⟨[g₁, g₂, g₃], rfl, ?_, ?_, ?_⟩, rfl⟩
    · intro z hz
      rcases List.mem_append.mp hz with hz | hz
      · exact h1 z hz
      · rcases List.mem_append.mp hz with hz | hz
        · exact h2 z hz
        · exact h3 z hz
    · simp [hg₁, hg₂, hg₃]
    · simp
    · simp [List.intercalate]
  · rintro ⟨digits, hhex, hjoined, rfl⟩
    obtain ⟨k₁, digits₁, s₁, hk₁, rfl, hs₁, htwo⟩ := joinedBy_succ_iff.mp hjoined
    obtain ⟨k₂, digits₂, s₂, hk₂, rfl, rfl, hone⟩ := joinedBy_succ_iff.mp htwo
    obtain ⟨-, rfl⟩ := joinedBy_one_iff.mp hone
    -- groups of one width are the same groups
    obtain ⟨rfl, htail₁⟩ := List.append_inj hs₁ (hg₁.trans hk₁.symm)
    obtain ⟨rfl, htail₂⟩ := List.append_inj (List.cons.inj htail₁).2 (hg₂.trans hk₂.symm)
    obtain ⟨-, rfl⟩ := List.cons.inj htail₂
    refine ⟨fun z hz => hhex z (List.mem_append_left _ hz), ?_, ?_, rfl⟩
    · exact fun z hz => hhex z (List.mem_append_right _ (List.mem_append_left _ hz))
    · exact fun z hz => hhex z (List.mem_append_right _ (List.mem_append_right _ hz))

/-- `Format` joins the pairs of a text of even length by colons. -/
theorem formatPairs_of_joinedBy {count : ℕ} {digits s : Str}
    (h : JoinedBy ':' (count + 1) 2 digits s) (formatted : Str) :
    formatPairs formatted digits
      = (if formatted.isEmpty then formatted else formatted ++ [':']) ++ s := by
  induction count generalizing digits s formatted with
  | zero =>
      obtain ⟨hlen, rfl⟩ := joinedBy_one_iff.mp h
      match s, hlen with
      | [c, d], _ => rfl
  | succ count ih =>
      obtain ⟨g, digits', s', hg, rfl, rfl, hrest⟩ := joinedBy_succ_iff.mp h
      match g, hg with
      | [c, d], _ =>
        rw [List.cons_append, List.cons_append, List.nil_append, formatPairs, ih hrest]
        simp [formatPairs.separated]

/-- Texts of the same digits in the same groups are equal. -/
theorem JoinedBy.unique {separator : Char} {count width : ℕ} {digits s t : Str}
    (hs : JoinedBy separator (count + 1) width digits s)
    (ht : JoinedBy separator (count + 1) width digits t) : s = t := by
  induction count generalizing digits s t with
  | zero => rw [(joinedBy_one_iff.mp hs).2, (joinedBy_one_iff.mp ht).2]
  | succ count ih =>
      obtain ⟨g, d, s', hg, rfl, rfl, hsrest⟩ := joinedBy_succ_iff.mp hs
      obtain ⟨g', d', t', hg', heq, rfl, htrest⟩ := joinedBy_succ_iff.mp ht
      obtain ⟨rfl, rfl⟩ := List.append_inj heq (hg.trans hg'.symm)
      rw [ih hsrest htrest]

/-- Digits of the right number can be joined. -/
theorem exists_joinedBy (separator : Char) {count width : ℕ} {digits : Str}
    (hlen : digits.length = (count + 1) * width) :
    ∃ s, JoinedBy separator (count + 1) width digits s := by
  induction count generalizing digits with
  | zero => exact ⟨digits, joinedBy_one_iff.mpr ⟨by simpa using hlen, rfl⟩⟩
  | succ count ih =>
      have hrest : (digits.drop width).length = (count + 1) * width := by
        rw [List.length_drop, hlen, Nat.succ_mul]
        omega
      obtain ⟨s, hs⟩ := ih hrest
      refine ⟨_, joinedBy_succ_iff.mpr ⟨digits.take width, digits.drop width, s, ?_,
        (List.take_append_drop _ _).symm, rfl, hs⟩⟩
      rw [List.length_take, hlen, Nat.succ_mul]
      omega

/-! ## The grammar -/

/-- The accepted spellings of the digits of an address. -/
inductive Spells (digits : Str) : Str → Prop
  | pairs {separator : Char} {s : Str} (hsep : separator = ':' ∨ separator = '-')
      (h : JoinedBy separator 6 2 digits s) : Spells digits s
  | dotted {s : Str} (h : JoinedBy '.' 3 4 digits s) : Spells digits s
  | plain (h : digits.length = 12) : Spells digits digits

theorem Spells.length {digits s : Str} (h : Spells digits s) : digits.length = 12 := by
  cases h with
  | pairs _ h => exact h.length.1
  | dotted h => exact h.length.1
  | plain h => exact h

/-- None of the separators is a hex digit. -/
theorem Spells.filter_isHex {digits s : Str} (h : Spells digits s)
    (hhex : ∀ c ∈ digits, isHex c = true) : s.filter isHex = digits := by
  cases h with
  | pairs hsep h =>
      refine h.filter_eq ?_ hhex
      rcases hsep with rfl | rfl <;> rfl
  | dotted h => exact h.filter_eq rfl hhex
  | plain => exact List.filter_eq_self.mpr hhex

/-- The branch a spelling takes is chosen by its length and one or two of its characters. -/
theorem normalizeClientMac_pairs {separator : Char} {digits s : Str}
    (hsep : separator = ':' ∨ separator = '-') (h : JoinedBy separator 6 2 digits s) :
    normalizeClientMac s = (cleanSeparated separator 0 [] s).map (formatPairs []) := by
  have hget := h.getElem?_width
  rw [normalizeClientMac, hget, if_pos ⟨h.length.2, by simpa using hsep⟩,
    List.getD_eq_getElem?_getD, hget, Option.getD_some]

theorem normalizeClientMac_dotted {digits s : Str} (h : JoinedBy '.' 3 4 digits s) :
    (s.length = 14 ∧ s[4]? = some '.' ∧ s[9]? = some '.') ∧
      normalizeClientMac s = (cleanDotted 0 [] s).map (formatPairs []) := by
  have hlen : s.length = 14 := h.length.2
  have h9 : s[9]? = some '.' := by
    obtain ⟨g, _, s', hg, _, rfl, hrest⟩ := joinedBy_succ_iff.mp h
    rw [List.getElem?_append_right (by omega), hg]
    exact hrest.getElem?_width
  have hdots := And.intro hlen (And.intro h.getElem?_width h9)
  refine ⟨hdots, ?_⟩
  rw [normalizeClientMac, if_neg (by omega), if_pos hdots]

theorem normalizeClientMac_plain {s : Str} (h : s.length = 12) :
    normalizeClientMac s = (cleanPlain [] s).map (formatPairs []) := by
  rw [normalizeClientMac, if_neg (by omega), if_neg (by omega), if_pos h]

/-- The texts `NormalizeClientMac` accepts and the text it gives for each of them. -/
theorem normalizeClientMac_eq_some_iff {s mac : Str} :
    normalizeClientMac s = some mac ↔
      ∃ digits, (∀ c ∈ digits, isHex c = true) ∧ Spells digits s ∧
        JoinedBy ':' 6 2 (digits.map lowerHex) mac := by
  -- Twelve digits have one spelling in pairs, so the text written is known by its form.
  have hformat : ∀ digits : Str, digits.length = 12 → ∀ mac,
      formatPairs [] (appendLower [] digits) = mac ↔
        JoinedBy ':' 6 2 (digits.map lowerHex) mac := by
    intro digits hlen mac
    obtain ⟨s, hs⟩ : ∃ s, JoinedBy ':' 6 2 (digits.map lowerHex) s :=
      exists_joinedBy ':' (by simpa using hlen)
    have hvalue : formatPairs [] (appendLower [] digits) = s := formatPairs_of_joinedBy hs []
    rw [hvalue]
    refine ⟨?_, ?_⟩
    · rintro rfl
      exact hs
    · exact hs.unique
  -- The length and the separators of a text name the branch it takes, and the branch its spelling.
  refine ⟨?_, ?_⟩
  · intro h
    unfold normalizeClientMac at h
    split_ifs at h with hsep hdot hplain
    · obtain ⟨clean, hclean, rfl⟩ := Option.map_eq_some_iff.mp h
      obtain ⟨digits, hhex, hjoined, rfl⟩ :=
        (cleanSeparated_eq_some_iff 5 rfl hsep.1).mp hclean
      have hspells : Spells digits s := by
        refine .pairs ?_ hjoined
        rw [List.getD_eq_getElem?_getD]
        rcases hsep.2 with h2 | h2
        · exact .inl (by rw [h2]; rfl)
        · exact .inr (by rw [h2]; rfl)
      exact ⟨digits, hhex, hspells, (hformat digits hspells.length _).mp rfl⟩
    · obtain ⟨clean, hclean, rfl⟩ := Option.map_eq_some_iff.mp h
      obtain ⟨digits, hhex, hjoined, rfl⟩ :=
        (cleanDotted_eq_some_iff hdot.1 hdot.2.1 hdot.2.2).mp hclean
      have hspells : Spells digits s := .dotted hjoined
      exact ⟨digits, hhex, hspells, (hformat digits hspells.length _).mp rfl⟩
    · obtain ⟨clean, hclean, rfl⟩ := Option.map_eq_some_iff.mp h
      obtain ⟨hhex, rfl⟩ := cleanPlain_eq_some_iff.mp hclean
      exact ⟨s, hhex, .plain hplain, (hformat s hplain _).mp rfl⟩
  · rintro ⟨digits, hhex, hspells, hmac⟩
    have hvalue := (hformat digits hspells.length mac).mpr hmac
    cases hspells with
    | pairs hsep h =>
        rw [normalizeClientMac_pairs hsep h,
          (cleanSeparated_eq_some_iff 5 rfl h.length.2).mpr ⟨digits, hhex, h, rfl⟩]
        exact congrArg some hvalue
    | dotted h =>
        obtain ⟨⟨hlen, h4, h9⟩, hbranch⟩ := normalizeClientMac_dotted h
        rw [hbranch, (cleanDotted_eq_some_iff hlen h4 h9).mpr ⟨digits, hhex, h, rfl⟩]
        exact congrArg some hvalue
    | plain h =>
        rw [normalizeClientMac_plain h, cleanPlain_eq_some_iff.mpr ⟨hhex, rfl⟩]
        exact congrArg some hvalue

/-! ## The same address -/

/-- The hex digits of a text, in lower case. -/
def hexDigits (s : Str) : Str := (s.filter isHex).map lowerHex

/-- A normal form is the hex digits of the text, joined by colons. -/
theorem joinedBy_hexDigits {s mac : Str} (h : normalizeClientMac s = some mac) :
    JoinedBy ':' 6 2 (hexDigits s) mac := by
  obtain ⟨digits, hhex, hspells, hmac⟩ := normalizeClientMac_eq_some_iff.mp h
  rwa [hexDigits, hspells.filter_isHex hhex]

theorem isHex_of_mem_hexDigits {s : Str} {c : Char} (h : c ∈ hexDigits s) : isHex c = true := by
  obtain ⟨d, hd, rfl⟩ := List.mem_map.mp h
  exact (lowerHex_of_isHex (List.mem_filter.mp hd).2).1

/-- Accepted texts have the same normal form iff they have the same digits. -/
theorem normalizeClientMac_eq_iff {s t : Str} (hs : (normalizeClientMac s).isSome = true)
    (ht : (normalizeClientMac t).isSome = true) :
    normalizeClientMac s = normalizeClientMac t ↔ hexDigits s = hexDigits t := by
  obtain ⟨m, hm⟩ := Option.isSome_iff_exists.mp hs
  obtain ⟨n, hn⟩ := Option.isSome_iff_exists.mp ht
  have hms := joinedBy_hexDigits hm
  have hnt := joinedBy_hexDigits hn
  rw [hm, hn, Option.some.injEq]
  refine ⟨?_, ?_⟩
  · rintro rfl
    rw [← hms.filter_eq (p := isHex) rfl fun c hc => isHex_of_mem_hexDigits hc,
      hnt.filter_eq (p := isHex) rfl fun c hc => isHex_of_mem_hexDigits hc]
  · intro h
    exact hms.unique (h ▸ hnt)

end OwAnalytics.Mcp
