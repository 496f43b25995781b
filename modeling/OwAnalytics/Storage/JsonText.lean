/-
  OwAnalytics.Storage.JsonText

  A JSON library to run the model with, over doubles that are whole numbers of 64 bits:
  documents are written without blanks, and what was written is read again.
-/

import OwAnalytics.Storage.JsonReading

namespace OwAnalytics.JsonText

open Document

/-! ## Writing -/

/-- Quotes and backslashes with a backslash before them. -/
def escape : Str → Str
  | [] => []
  | c :: rest =>
    if c = '\x22' ∨ c = '\x5c' then '\x5c' :: c :: escape rest else c :: escape rest

/-- A string in quotes, escaped. -/
def printString (s : Str) : Str := '\x22' :: escape s ++ ['\x22']

/-- A whole number, in decimal digits. -/
def printNumber (n : Int) : Str :=
  if n < 0 then '-' :: Nat.toDigits 10 n.natAbs else Nat.toDigits 10 n.natAbs

mutual

/-- `Stringifier::condense`. -/
def print : Document Int64 → Str
  | .null => "null".toList
  | .bool b => if b then "true".toList else "false".toList
  | .unsigned n => printNumber n.toNat
  | .integer n => printNumber n.toInt
  | .float x => printNumber x.toInt
  | .str s => printString s
  | .arr [] => ['[', ']']
  | .arr (d :: rest) => '[' :: print d ++ printItems rest
  | .obj [] => ['\x7b', '\x7d']
  | .obj (e :: rest) => '\x7b' :: printString e.1 ++ ':' :: print e.2 ++ printMembers rest

/-- The elements after the first, and the end of the array. -/
def printItems : List (Document Int64) → Str
  | [] => [']']
  | d :: rest => ',' :: print d ++ printItems rest

/-- The members after the first, and the end of the object. -/
def printMembers : List (Str × Document Int64) → Str
  | [] => ['\x7d']
  | e :: rest => ',' :: printString e.1 ++ ':' :: print e.2 ++ printMembers rest

end

/-! ## Reading -/

/-- The text up to a quote, and what follows it; a backslash escapes what comes next. -/
def readString : Bool → Str → Option (Str × Str)
  | _, [] => none
  | true, c :: rest => (readString false rest).map fun r => (c :: r.1, r.2)
  | false, c :: rest =>
    if c = '\x22' then some ([], rest)
    else if c = '\x5c' then readString true rest
    else (readString false rest).map fun r => (c :: r.1, r.2)

/-- The digits a text begins with, and what comes after them. -/
def readNatural (text : Str) : Option (Nat × Str) :=
  if text.takeWhile Char.isDigit = [] then none
  else some (Nat.ofDigitChars 10 (text.takeWhile Char.isDigit) 0, text.dropWhile Char.isDigit)

/-- A number without a sign, which a `uint64_t` must hold. -/
def readUnsigned (text : Str) : Option (Document Int64 × Str) :=
  (readNatural text).bind fun r =>
    if r.1 < 2 ^ 64 then some (.unsigned (UInt64.ofNat r.1), r.2) else none

/-- The digits after a minus sign, of a number that an `int64_t` must hold. -/
def readNegative (text : Str) : Option (Document Int64 × Str) :=
  (readNatural text).bind fun r =>
    if r.1 ≤ 2 ^ 63 then some (.integer (Int64.ofInt (-r.1)), r.2) else none

/-- The rest of a word. -/
def readWord (word : String) (d : Document Int64) (text : Str) : Option (Document Int64 × Str) :=
  if word.toList.isPrefixOf text then some (d, text.drop word.length) else none

/-- The object of members that may stand in any order. -/
def objectOf (members : List (Str × Document Int64)) : Document Int64 :=
  .obj (members.foldl (fun members e => setMember e.1 e.2 members) [])

mutual

/-- A value at the start of a text, and what comes after it. -/
def readValue : Nat → Str → Option (Document Int64 × Str)
  | 0, _ => none
  | _ + 1, [] => none
  | fuel + 1, c :: rest =>
    if c.isDigit then readUnsigned (c :: rest)
    else if c = '-' then readNegative rest
    else if c = 'n' then readWord "ull" .null rest
    else if c = 't' then readWord "rue" (.bool true) rest
    else if c = 'f' then readWord "alse" (.bool false) rest
    else if c = '\x22' then (readString false rest).map fun r => (.str r.1, r.2)
    else if c = '[' then
      if rest.head? = some ']' then some (.arr [], rest.tail)
      else
        (readValue fuel rest).bind fun r =>
          (readItems fuel r.2).map fun s => (.arr (r.1 :: s.1), s.2)
    else if c = '\x7b' then
      if rest.head? = some '\x7d' then some (.obj [], rest.tail)
      else
        (readMember fuel rest).bind fun r =>
          (readMembers fuel r.2).map fun s => (objectOf (r.1 :: s.1), s.2)
    else none

/-- The values of an array up to its closing bracket. -/
def readItems : Nat → Str → Option (List (Document Int64) × Str)
  | 0, _ => none
  | _ + 1, [] => none
  | fuel + 1, c :: rest =>
    if c = ']' then some ([], rest)
    else if c = ',' then
      (readValue fuel rest).bind fun r =>
        (readItems fuel r.2).map fun s => (r.1 :: s.1, s.2)
    else none

/-- A member of an object: its name, a colon and its value. -/
def readMember : Nat → Str → Option ((Str × Document Int64) × Str)
  | 0, _ => none
  | _ + 1, [] => none
  | fuel + 1, c :: rest =>
    if c = '\x22' then
      (readString false rest).bind fun r =>
        if r.2.head? = some ':' then
          (readValue fuel r.2.tail).map fun s => ((r.1, s.1), s.2)
        else none
    else none

/-- The members of an object up to its closing brace. -/
def readMembers : Nat → Str → Option (List (Str × Document Int64) × Str)
  | 0, _ => none
  | _ + 1, [] => none
  | fuel + 1, c :: rest =>
    if c = '\x7d' then some ([], rest)
    else if c = ',' then
      (readMember fuel rest).bind fun r =>
        (readMembers fuel r.2).map fun s => (r.1 :: s.1, s.2)
    else none

end

/-- A text that is one value, with nothing after it. -/
def parse (text : Str) : Option (Document Int64) :=
  match readValue text.length text with
  | some (d, []) => some d
  | _ => none

/-- What the numeral of a number is read as. -/
def number (x : Int64) : Document Int64 := if x < 0 then .integer x else .unsigned x.toUInt64

/-- The library. -/
def library : JsonLibrary Int64 where
  text
    | .bool b => some (if b then "true".toList else "false".toList)
    | d => some (print d)
  uint64
    | .unsigned n => some n
    | .integer n => if n < 0 then none else some n.toUInt64
    | .float x => if x < 0 then none else some x.toUInt64
    | _ => none
  int64
    | .unsigned n => if n.toNat < 2 ^ 63 then some n.toInt64 else none
    | .integer n => some n
    | .float x => some x
    | _ => none
  double
    | .unsigned n => if n.toNat < 2 ^ 63 then some n.toInt64 else none
    | .integer n => some n
    | .float x => some x
    | _ => none
  parse := parse
  stringify := print
  number := number

/-! ## Strings and numbers -/

theorem readString_escape (s r : Str) :
    readString false (escape s ++ '\x22' :: r) = some (s, r) := by
  induction s with
  | nil => rfl
  | cons c s ih =>
      rw [escape]
      split
      · rw [List.cons_append, List.cons_append, readString, if_neg (by decide), if_pos rfl,
          readString, ih]
        rfl
      · rename_i hplain
        rw [not_or] at hplain
        rw [List.cons_append, readString, if_neg hplain.1, if_neg hplain.2, ih]
        rfl

/-- A text that does not continue a number. -/
def NoDigit (r : Str) : Prop := r.takeWhile Char.isDigit = []

theorem readNatural_toDigits (n : Nat) {r : Str} (hr : NoDigit r) :
    readNatural (Nat.toDigits 10 n ++ r) = some (n, r) := by
  have hdigits : ∀ c ∈ Nat.toDigits 10 n, c.isDigit = true := fun c hc =>
    Nat.isDigit_of_mem_toDigits (by decide) (by decide) hc
  have htake : (Nat.toDigits 10 n ++ r).takeWhile Char.isDigit = Nat.toDigits 10 n := by
    rw [List.takeWhile_append_of_pos hdigits, hr, List.append_nil]
  have hdrop : (Nat.toDigits 10 n ++ r).dropWhile Char.isDigit = r := by
    have hrest := List.takeWhile_append_dropWhile (p := Char.isDigit) (l := r)
    rw [hr, List.nil_append] at hrest
    rw [List.dropWhile_append_of_pos hdigits, hrest]
  have hne : Nat.toDigits 10 n ≠ [] := List.ne_nil_of_length_pos Nat.length_toDigits_pos
  rw [readNatural, htake, hdrop, if_neg hne, Nat.ofDigitChars_ten_toDigits]

theorem readValue_toDigits {n fuel : Nat} (hn : n < 2 ^ 64) {r : Str} (hr : NoDigit r) :
    readValue (fuel + 1) (Nat.toDigits 10 n ++ r) = some (.unsigned (UInt64.ofNat n), r) := by
  have hread := readNatural_toDigits n hr
  cases htext : Nat.toDigits 10 n with
  | nil => exact absurd htext (List.ne_nil_of_length_pos Nat.length_toDigits_pos)
  | cons c rest =>
      have hc : c.isDigit = true :=
        Nat.isDigit_of_mem_toDigits (by decide) (by decide) (htext ▸ List.mem_cons_self)
      rw [htext, List.cons_append] at hread
      rw [List.cons_append, readValue, if_pos hc, readUnsigned, hread, Option.bind_some, if_pos hn]

theorem readValue_printNumber {x : Int64} {fuel : Nat} {r : Str} (hr : NoDigit r) :
    readValue (fuel + 1) (printNumber x.toInt ++ r) = some (number x, r) := by
  have hlower := x.le_toInt
  have hupper := x.toInt_lt
  rw [printNumber, number]
  -- a negative number is read after its sign, another one as unsigned
  by_cases hneg : x < 0
  · have hlt : x.toInt < 0 := by simpa using Int64.lt_iff_toInt_lt.mp hneg
    have hminus : ('-' : Char).isDigit = false := by decide
    rw [if_pos hlt, if_pos hneg, List.cons_append, readValue, hminus, if_neg Bool.false_ne_true,
      if_pos rfl, readNegative, readNatural_toDigits _ hr, Option.bind_some, if_pos (by omega)]
    have habs : (-(x.toInt.natAbs : Int)) = x.toInt := by omega
    dsimp only
    rw [habs, Int64.ofInt_toInt]
  · have hge : ¬ x.toInt < 0 := fun h => hneg (Int64.lt_iff_toInt_lt.mpr (by simpa using h))
    have hpos : 0 ≤ x := Int64.not_lt.mp hneg
    have hfits : x.toInt.natAbs < UInt64.size := by
      show _ < 2 ^ 64
      omega
    have hnat : UInt64.ofNat x.toInt.natAbs = x.toUInt64 := by
      apply UInt64.toNat.inj
      rw [UInt64.toNat_ofNat_of_lt' hfits, Int64.toNat_toUInt64_of_le hpos, Int64.toNatClampNeg]
      omega
    rw [if_neg hge, if_neg hneg, readValue_toDigits (by omega) hr, hnat]

/-! ## Documents -/

theorem readValue_quote (fuel : Nat) (rest : Str) :
    readValue (fuel + 1) ('\x22' :: rest)
      = (readString false rest).map fun r => (.str r.1, r.2) := rfl

/-- A value does not begin as an array ends. -/
theorem head?_ne_of_readValue {fuel : Nat} {text : Str} {r : Document Int64 × Str}
    (h : readValue fuel text = some r) : text.head? ≠ some ']' := by
  intro hhead
  obtain ⟨rest, rfl⟩ := List.head?_eq_some_iff.mp hhead
  cases fuel with
  | zero => cases h
  | succ fuel => cases h

theorem readValue_bracket {fuel : Nat} {rest : Str} (h : rest.head? ≠ some ']') :
    readValue (fuel + 1) ('[' :: rest)
      = (readValue fuel rest).bind fun r =>
          (readItems fuel r.2).map fun s => (.arr (r.1 :: s.1), s.2) :=
  if_neg h

theorem readValue_brace {fuel : Nat} {rest : Str} (h : rest.head? ≠ some '\x7d') :
    readValue (fuel + 1) ('\x7b' :: rest)
      = (readMember fuel rest).bind fun r =>
          (readMembers fuel r.2).map fun s => (objectOf (r.1 :: s.1), s.2) :=
  if_neg h

/-- What is written is read, before a text that does not continue it. -/
def Reads (d : Document Int64) : Prop :=
  ∀ fuel r, (print d).length ≤ fuel → NoDigit r →
    readValue fuel (print d ++ r) = some (d.reread number, r)

theorem printNumber_ne_nil (n : Int) : printNumber n ≠ [] := by
  rw [printNumber]
  split
  · exact List.cons_ne_nil _ _
  · exact List.ne_nil_of_length_pos Nat.length_toDigits_pos

/-- Something is written of every document. -/
theorem print_ne_nil (d : Document Int64) : print d ≠ [] := by
  cases d with
  | null => exact List.cons_ne_nil _ _
  | bool b => cases b <;> exact List.cons_ne_nil _ _
  | unsigned n => rw [print]; exact printNumber_ne_nil _
  | integer n => rw [print]; exact printNumber_ne_nil _
  | float x => rw [print]; exact printNumber_ne_nil _
  | str s => exact List.cons_ne_nil _ _
  | arr items => cases items <;> exact List.cons_ne_nil _ _
  | obj members => cases members <;> exact List.cons_ne_nil _ _

theorem noDigit_printItems (items : List (Document Int64)) (r : Str) :
    NoDigit (printItems items ++ r) := by
  cases items <;> rfl

theorem noDigit_printMembers (members : List (Str × Document Int64)) (r : Str) :
    NoDigit (printMembers members ++ r) := by
  cases members <;> rfl

theorem readItems_printItems {items : List (Document Int64)} (h : ∀ d ∈ items, Reads d)
    {fuel : Nat} (hfuel : (printItems items).length ≤ fuel) (r : Str) :
    readItems fuel (printItems items ++ r) = some (rereadItems number items, r) := by
  induction items generalizing fuel with
  | nil =>
      cases fuel with
      | zero => exact absurd hfuel (Nat.not_succ_le_zero _)
      | succ fuel => rfl
  | cons d rest ih =>
      cases fuel with
      | zero => exact absurd hfuel (Nat.not_succ_le_zero _)
      | succ fuel =>
          rw [printItems, List.length_append, List.length_cons] at hfuel
          have hd := h d List.mem_cons_self fuel (printItems rest ++ r) (by omega)
            (noDigit_printItems rest r)
          have hlength : (printItems rest).length ≤ fuel := by omega
          have hrest := ih (fun x hx => h x (List.mem_cons_of_mem _ hx)) hlength
          rw [printItems, List.append_assoc, List.cons_append, readItems, if_neg (by decide),
            if_pos rfl, hd, Option.bind_some]
          dsimp only
          rw [hrest]
          rfl

theorem readMember_print {e : Str × Document Int64} (h : Reads e.2) {fuel : Nat}
    (hfuel : (print e.2).length + 3 ≤ fuel) {r : Str} (hr : NoDigit r) :
    readMember fuel (printString e.1 ++ ':' :: (print e.2 ++ r))
      = some ((e.1, e.2.reread number), r) := by
  cases fuel with
  | zero => omega
  | succ fuel =>
      rw [printString, List.append_assoc, List.cons_append, List.singleton_append, readMember,
        if_pos rfl, readString_escape, Option.bind_some]
      dsimp only
      rw [List.head?_cons, if_pos rfl, List.tail_cons, h fuel r (by omega) hr]
      rfl

theorem readMembers_printMembers {members : List (Str × Document Int64)}
    (h : ∀ e ∈ members, Reads e.2) {fuel : Nat} (hfuel : (printMembers members).length ≤ fuel)
    (r : Str) :
    readMembers fuel (printMembers members ++ r) = some (rereadMembers number members, r) := by
  induction members generalizing fuel with
  | nil =>
      cases fuel with
      | zero => exact absurd hfuel (Nat.not_succ_le_zero _)
      | succ fuel => rfl
  | cons e rest ih =>
      cases fuel with
      | zero => exact absurd hfuel (Nat.not_succ_le_zero _)
      | succ fuel =>
          -- One unit of fuel pays for the member; its value and the rest are shorter.
          rw [printMembers, printString] at hfuel
          simp only [List.length_append, List.length_cons] at hfuel
          have hvalue : (print e.2).length + 3 ≤ fuel := by omega
          have hlength : (printMembers rest).length ≤ fuel := by omega
          have he := readMember_print (h e List.mem_cons_self) hvalue (noDigit_printMembers rest r)
          have hrest := ih (fun x hx => h x (List.mem_cons_of_mem _ hx)) hlength
          rw [printMembers]
          simp only [List.append_assoc, List.cons_append]
          rw [readMembers, if_neg (by decide), if_pos rfl, he, Option.bind_some]
          dsimp only
          rw [hrest]
          rfl

theorem not_length_print_le_zero {d : Document Int64} : ¬ (print d).length ≤ 0 := fun hle =>
  print_ne_nil _ (List.length_eq_zero_iff.mp (Nat.le_zero.mp hle))

theorem reads_arr {items : List (Document Int64)} (h : ∀ d ∈ items, Reads d) :
    Reads (.arr items) := by
  intro fuel r hfuel hr
  rw [Document.reread]
  cases fuel with
  | zero => exact absurd hfuel not_length_print_le_zero
  | succ fuel =>
      cases items with
      | nil => rw [print, rereadItems]; rfl
      | cons d rest =>
          rw [print, List.length_append, List.length_cons] at hfuel
          -- the first element, and the others with the end of the array
          have hd := h d List.mem_cons_self fuel (printItems rest ++ r) (by omega)
            (noDigit_printItems rest r)
          have hlength : (printItems rest).length ≤ fuel := by omega
          have hrest := readItems_printItems (fun x hx => h x (List.mem_cons_of_mem _ hx))
            hlength r
          rw [print, List.append_assoc, List.cons_append,
            readValue_bracket (head?_ne_of_readValue hd), hd, Option.bind_some]
          dsimp only
          rw [hrest, rereadItems]
          rfl

theorem reads_obj {members : List (Str × Document Int64)}
    (hkeys : members.Pairwise fun a b => compare a.1 b.1 = .lt)
    (h : ∀ e ∈ members, Reads e.2) : Reads (.obj members) := by
  intro fuel r hfuel hr
  rw [Document.reread]
  cases fuel with
  | zero => exact absurd hfuel not_length_print_le_zero
  | succ fuel =>
      cases members with
      | nil => rw [print, rereadMembers]; rfl
      | cons e rest =>
          rw [print, printString] at hfuel
          simp only [List.length_append, List.length_cons] at hfuel
          have hvalue : (print e.2).length + 3 ≤ fuel := by omega
          have hlength : (printMembers rest).length ≤ fuel := by omega
          have he := readMember_print (h e List.mem_cons_self) hvalue
            (noDigit_printMembers rest r)
          have hrest := readMembers_printMembers
            (fun x hx => h x (List.mem_cons_of_mem _ hx)) hlength r
          -- the members stand in order, so setting one after the other keeps them
          have hkeys' : ((e :: rest).map fun e => (e.1, e.2.reread number)).Pairwise
              fun a b => compare a.1 b.1 = .lt := List.pairwise_map.mpr hkeys
          have hordered : objectOf ((e.1, e.2.reread number) :: rereadMembers number rest)
              = .obj (rereadMembers number (e :: rest)) := by
            rw [rereadMembers_eq_map, rereadMembers_eq_map, objectOf]
            exact congrArg Document.obj (foldl_setMember hkeys')
          rw [print]
          simp only [List.append_assoc, List.cons_append]
          rw [readValue_brace, he, Option.bind_some]
          · dsimp only
            rw [hrest, Option.map_some, hordered]
          · simp [printString]

/-- The induction is on the order of the members, which a reader puts back. -/
theorem reads_of_ordered {d : Document Int64} (h : d.Ordered) : Reads d := by
  induction h with
  | null =>
      intro fuel r hfuel hr
      cases fuel with
      | zero => exact absurd hfuel not_length_print_le_zero
      | succ fuel => rw [Document.reread]; rfl
  | bool b =>
      intro fuel r hfuel hr
      cases fuel with
      | zero => exact absurd hfuel not_length_print_le_zero
      | succ fuel => cases b <;> rw [Document.reread] <;> rfl
  | unsigned n =>
      intro fuel r hfuel hr
      have hge : ¬ ((n.toNat : Int) < 0) := by omega
      cases fuel with
      | zero => exact absurd hfuel not_length_print_le_zero
      | succ fuel =>
          rw [print, printNumber, if_neg hge, Int.natAbs_natCast,
            readValue_toDigits n.toNat_lt hr, UInt64.ofNat_toNat, Document.reread]
  | integer n =>
      intro fuel r hfuel hr
      cases fuel with
      | zero => exact absurd hfuel not_length_print_le_zero
      | succ fuel => rw [print, readValue_printNumber hr, Document.reread, number]
  | float x =>
      intro fuel r hfuel hr
      cases fuel with
      | zero => exact absurd hfuel not_length_print_le_zero
      | succ fuel => rw [print, readValue_printNumber hr, Document.reread]
  | str s =>
      intro fuel r hfuel hr
      cases fuel with
      | zero => exact absurd hfuel not_length_print_le_zero
      | succ fuel =>
          rw [print, printString, List.cons_append, List.cons_append, List.append_assoc,
            List.singleton_append, readValue_quote, readString_escape, Document.reread]
          rfl
  | @arr items h ih => exact reads_arr ih
  | @obj members hkeys h ih => exact reads_obj hkeys ih

theorem parse_print {d : Document Int64} (h : d.Ordered) :
    parse (print d) = some (d.reread number) := by
  have hread := reads_of_ordered h (print d).length [] le_rfl rfl
  rw [List.append_nil] at hread
  rw [parse, hread]

/-! ## The order of members -/

theorem ordered_readUnsigned {text : Str} {r : Document Int64 × Str}
    (h : readUnsigned text = some r) : r.1.Ordered := by
  obtain ⟨n, -, hn⟩ := Option.bind_eq_some_iff.mp h
  split at hn
  · cases hn
    exact .unsigned _
  · cases hn

theorem ordered_readNegative {text : Str} {r : Document Int64 × Str}
    (h : readNegative text = some r) : r.1.Ordered := by
  obtain ⟨n, -, hn⟩ := Option.bind_eq_some_iff.mp h
  split at hn
  · cases hn
    exact .integer _
  · cases hn

theorem ordered_readWord {word : String} {d : Document Int64} (hd : d.Ordered) {text : Str}
    {r : Document Int64 × Str} (h : readWord word d text = some r) : r.1.Ordered := by
  rw [readWord] at h
  split at h
  · cases h
    exact hd
  · cases h

/-- A branch that is taken is one of the two. -/
theorem eq_or_eq_of_ite {α : Type} {p : Prop} [Decidable p] {a b : Option α} {r : α}
    (h : (if p then a else b) = some r) : a = some r ∨ b = some r := by
  split at h
  · exact .inl h
  · exact .inr h

/-- What the four readers make of a text with that fuel has its members in order. -/
structure ReadsOrdered (fuel : Nat) : Prop where
  value : ∀ {text r}, readValue fuel text = some r → r.1.Ordered
  items : ∀ {text r}, readItems fuel text = some r → ∀ d ∈ r.1, d.Ordered
  member : ∀ {text r}, readMember fuel text = some r → r.1.2.Ordered
  members : ∀ {text r}, readMembers fuel text = some r → ∀ e ∈ r.1, e.2.Ordered

namespace ReadsOrdered

variable {fuel : Nat} {text : Str}

theorem readValue_succ (ih : ReadsOrdered fuel) {r : Document Int64 × Str}
    (h : readValue (fuel + 1) text = some r) : r.1.Ordered := by
  cases text with
  | nil => cases h
  | cons c rest =>
      rw [readValue] at h
      rcases eq_or_eq_of_ite h with h | h
      · exact ordered_readUnsigned h
      rcases eq_or_eq_of_ite h with h | h
      · exact ordered_readNegative h
      rcases eq_or_eq_of_ite h with h | h
      · exact ordered_readWord .null h
      rcases eq_or_eq_of_ite h with h | h
      · exact ordered_readWord (.bool true) h
      rcases eq_or_eq_of_ite h with h | h
      · exact ordered_readWord (.bool false) h
      rcases eq_or_eq_of_ite h with h | h
      · obtain ⟨s, -, rfl⟩ := Option.map_eq_some_iff.mp h
        exact .str _
      rcases eq_or_eq_of_ite h with h | h
      · -- an array
        rcases eq_or_eq_of_ite h with h | h
        · cases h
          exact .arr (by simp)
        · obtain ⟨first, hfirst, h⟩ := Option.bind_eq_some_iff.mp h
          obtain ⟨others, hothers, rfl⟩ := Option.map_eq_some_iff.mp h
          exact .arr (List.forall_mem_cons.mpr ⟨ih.value hfirst, ih.items hothers⟩)
      rcases eq_or_eq_of_ite h with h | h
      · -- an object
        rcases eq_or_eq_of_ite h with h | h
        · cases h
          exact .obj List.Pairwise.nil (by simp)
        · obtain ⟨first, hfirst, h⟩ := Option.bind_eq_some_iff.mp h
          obtain ⟨others, hothers, rfl⟩ := Option.map_eq_some_iff.mp h
          exact Ordered.foldl_setMember (List.forall_mem_cons.mpr
            ⟨ih.member hfirst, ih.members hothers⟩)
      · cases h

theorem readItems_succ (ih : ReadsOrdered fuel) {r : List (Document Int64) × Str}
    (h : readItems (fuel + 1) text = some r) : ∀ d ∈ r.1, d.Ordered := by
  cases text with
  | nil => cases h
  | cons c rest =>
      rw [readItems] at h
      split_ifs at h with hend hcomma
      · cases h
        simp
      · obtain ⟨first, hfirst, h⟩ := Option.bind_eq_some_iff.mp h
        obtain ⟨others, hothers, rfl⟩ := Option.map_eq_some_iff.mp h
        exact List.forall_mem_cons.mpr ⟨ih.value hfirst, ih.items hothers⟩

theorem readMember_succ (ih : ReadsOrdered fuel) {r : (Str × Document Int64) × Str}
    (h : readMember (fuel + 1) text = some r) : r.1.2.Ordered := by
  cases text with
  | nil => cases h
  | cons c rest =>
      rw [readMember] at h
      split_ifs at h with hquote
      obtain ⟨key, -, h⟩ := Option.bind_eq_some_iff.mp h
      split at h
      · obtain ⟨value, hread, rfl⟩ := Option.map_eq_some_iff.mp h
        exact ih.value hread
      · cases h

theorem readMembers_succ (ih : ReadsOrdered fuel) {r : List (Str × Document Int64) × Str}
    (h : readMembers (fuel + 1) text = some r) : ∀ e ∈ r.1, e.2.Ordered := by
  cases text with
  | nil => cases h
  | cons c rest =>
      rw [readMembers] at h
      split_ifs at h with hend hcomma
      · cases h
        simp
      · obtain ⟨first, hfirst, h⟩ := Option.bind_eq_some_iff.mp h
        obtain ⟨others, hothers, rfl⟩ := Option.map_eq_some_iff.mp h
        exact List.forall_mem_cons.mpr ⟨ih.member hfirst, ih.members hothers⟩

end ReadsOrdered

/-- Whatever is read has its members in order. -/
theorem ordered_of_read (fuel : Nat) : ReadsOrdered fuel := by
  induction fuel with
  | zero => exact ⟨nofun, nofun, nofun, nofun⟩
  | succ fuel ih =>
      exact ⟨ih.readValue_succ, ih.readItems_succ, ih.readMember_succ, ih.readMembers_succ⟩

theorem ordered_parse {text : Str} {d : Document Int64} (h : parse text = some d) : d.Ordered := by
  rw [parse] at h
  split at h
  · rename_i hread
    cases h
    exact (ordered_of_read _).value hread
  · cases h

/-! ## The library -/

theorem reread_number (x : Int64) : (number x).reread number = number x := by
  rw [number]
  split
  · rename_i hneg
    rw [Document.reread, if_pos hneg]
  · rw [Document.reread]

theorem reread_integer (n : Int64) : (Document.integer n).reread number = number n := by
  rw [Document.reread, number]

/-- Whole numbers of 64 bits are read as what they are. -/
theorem int64_number (n : Int64) :
    library.int64 (number n) = some n ∧ library.double (number n) = some n := by
  rw [number]
  by_cases hneg : n < 0
  · rw [if_pos hneg]
    exact ⟨rfl, rfl⟩
  · have hpos : 0 ≤ n := Int64.not_lt.mp hneg
    have hfits : n.toUInt64.toNat < 2 ^ 63 := by
      have hupper := n.toInt_lt
      rw [Int64.toNat_toUInt64_of_le hpos, Int64.toNatClampNeg]
      omega
    have hback :
        (if n.toUInt64.toNat < 2 ^ 63 then some n.toUInt64.toInt64 else none) = some n := by
      rw [if_pos hfits, Int64.toInt64_toUInt64]
    rw [if_neg hneg]
    exact ⟨hback, hback⟩

theorem inverts_library : library.Inverts where
  parse_nil := rfl
  parse_brackets := by
    have hparse := parse_print (d := .arr []) (.arr (by simp))
    rw [print, Document.reread, rereadItems] at hparse
    exact hparse
  parse_ordered := ordered_parse
  parse_stringify := parse_print
  uint64_unsigned _ := rfl
  int64_integer n := by
    show library.int64 ((Document.integer n).reread number) = some n
    rw [reread_integer]
    exact (int64_number n).1
  double_number x := by
    have hdouble := (int64_number x).2
    show library.toDouble (number x) = some x
    -- A number is never read back as null.
    cases hnumber : number x with
    | null =>
        rw [hnumber] at hdouble
        cases hdouble
    | _ =>
        rw [hnumber] at hdouble
        exact hdouble
  isNumeric_number x := by
    show (number x).isNumeric = true ∧ (number x).isBoolean = false
    rw [number]
    split
    · exact ⟨rfl, rfl⟩
    · exact ⟨rfl, rfl⟩
  reread_number := reread_number
  text_bool _ := rfl
  text_unsigned n := by
    have hge : ¬ ((n.toNat : Int) < 0) := by omega
    show some (printNumber n.toNat) = _
    rw [printNumber, if_neg hge, Int.natAbs_natCast]

end OwAnalytics.JsonText
