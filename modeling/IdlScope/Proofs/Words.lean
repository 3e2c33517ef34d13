import IdlScope.Json.Pretty

/-!
# Words — the tokens of a written text

A string and a number are written in one way and read by rules that allow many. Both come back
as they were, whatever follows a string, and whatever follows a number that no number goes on
with.

* **`token?_literal`** — every text comes back from its literal: what is escaped is read as the
  character it stood for, and no character is taken for half of a surrogate pair.
* **`token?_chars`** — a well-formed numeral comes back from its characters, and **`int?_ofInt`**
  says that the numeral of an integer still means that integer.
* **`Cuts`** — a text is cut into its tokens one after the other, the blanks between them left out.
-/

namespace IdlScope.Json

/-! ## Strings -/

theorem hexDigit?_hexChar : ∀ n < 16, hexDigit? (hexChar n) = some n := by decide

/-- A control character is read from the four digits of its number. -/
theorem hexQuad?_hexChar {n : Nat} (h : n < 32) :
    hexQuad? '0' '0' (hexChar (n / 16)) (hexChar (n % 16)) = some n := by
  have hzero : hexDigit? '0' = some 0 := by decide
  rw [hexQuad?, hzero, hexDigit?_hexChar _ (by omega), hexDigit?_hexChar _ (by omega)]
  show some (((0 * 16 + 0) * 16 + n / 16) * 16 + n % 16) = some n
  rw [Option.some.injEq]
  omega

/-- A character that is not escaped is a code unit of its own. -/
theorem units?_cons {c : Char} (hquote : c ≠ '"') (hback : c ≠ '\\') (hcontrol : ¬ c.toNat < 32)
    (rest : List Char) :
    units? (c :: rest) = (units? rest).map fun r => (c.toNat :: r.1, r.2) := by
  rw [units?.eq_def]
  split
  · next h => cases h
  · next h => exact absurd (List.cons.inj h).1 hquote
  · next h => exact absurd (List.cons.inj h).1 hback
  · next h => exact absurd (List.cons.inj h).1 hback
  · next h =>
    obtain ⟨rfl, rfl⟩ := List.cons.inj h
    rw [if_neg (by simp [hcontrol, hback])]
    cases units? rest <;> rfl

/-- What a character is written as gives the unit of that character. -/
theorem units?_escapeChar (c : Char) (rest : List Char) :
    units? (escapeChar c ++ rest) = (units? rest).map fun r => (c.toNat :: r.1, r.2) := by
  -- the seven characters with an escape of one letter
  have hshort : ∀ (e : Char), e ≠ 'u' → escaped? e = some c →
      units? ('\\' :: e :: rest) = (units? rest).map fun r => (c.toNat :: r.1, r.2) := by
    intro e hu he
    rw [units?]
    · rw [he]
      cases units? rest <;> rfl
    · intro _ _ _ _ _ h _
      exact hu h
  simp only [escapeChar, beq_iff_eq]
  split
  · next h => exact hshort '"' (by decide) (by rw [h]; rfl)
  split
  · next h => exact hshort '\\' (by decide) (by rw [h]; rfl)
  split
  · next h => exact hshort 'b' (by decide) (by rw [h]; rfl)
  split
  · next h => exact hshort 'f' (by decide) (by rw [h]; rfl)
  split
  · next h => exact hshort 'n' (by decide) (by rw [h]; rfl)
  split
  · next h => exact hshort 'r' (by decide) (by rw [h]; rfl)
  split
  · next h => exact hshort 't' (by decide) (by rw [h]; rfl)
  split
  · next h =>
    show units? ('\\' :: 'u' :: '0' :: '0' :: _ :: _ :: rest) = _
    rw [units?, hexQuad?_hexChar h]
    cases units? rest <;> rfl
  · next hquote hback _ _ _ _ _ hcontrol => exact units?_cons hquote hback hcontrol rest

theorem units?_flatMap (cs rest : List Char) :
    units? (cs.flatMap escapeChar ++ '"' :: rest) = some (cs.map Char.toNat, rest) := by
  induction cs with
  | nil => rfl
  | cons c cs ih =>
      rw [List.flatMap_cons, List.append_assoc, units?_escapeChar, ih]
      rfl

/-- No character is half of a surrogate pair. -/
theorem half_toNat (c : Char) : isHighHalf c.toNat = false ∧ isLowHalf c.toNat = false := by
  have hvalid : c.toNat < 0xD800 ∨ (0xDFFF < c.toNat ∧ c.toNat < 0x110000) := c.valid
  simp only [isHighHalf, isLowHalf, Bool.and_eq_false_iff, decide_eq_false_iff_not]
  omega

theorem unitsText?_map (cs : List Char) : unitsText? (cs.map Char.toNat) = some cs := by
  induction cs with
  | nil => rfl
  | cons c cs ih =>
      obtain ⟨hhigh, hlow⟩ := half_toNat c
      cases cs with
      | nil => simp only [List.map_cons, List.map_nil, unitsText?, hhigh, hlow, Bool.or_self,
          Bool.false_eq_true, if_false, Char.ofNat_toNat]
      | cons d cs =>
          rw [List.map_cons] at ih ⊢
          rw [List.map_cons]
          simp only [unitsText?, hhigh, hlow, Bool.false_eq_true, if_false, ih, Option.map_some,
            Char.ofNat_toNat]

/-- A text is read back from its literal. -/
theorem token?_literal (s : String) (rest : List Char) :
    token? (literal s ++ rest) = some (.text (some s), rest) := by
  have hunits : units? (s.toList.flatMap escapeChar ++ ['"'] ++ rest) =
      some (s.toList.map Char.toNat, rest) := by
    rw [List.append_assoc]
    exact units?_flatMap s.toList rest
  rw [literal, List.cons_append, token?, hunits]
  show some (Token.text ((unitsText? (s.toList.map Char.toNat)).map String.ofList), rest) = _
  rw [unitsText?_map, Option.map_some, String.ofList_toList]

/-! ## Numbers -/

/-- The numerals that JSON has: digits in every part, and no zero in front of the others. -/
structure Numeral.WellFormed (n : Numeral) : Prop where
  whole : ∀ c ∈ n.whole, c.isDigit = true
  whole_ne : n.whole ≠ []
  leading : n.whole.head? = some '0' → n.whole = ['0']
  fraction : ∀ c ∈ n.fraction, c.isDigit = true
  exponent : ∀ e ∈ n.exponent, (∀ c ∈ e.digits, c.isDigit = true) ∧ e.digits ≠ []

/-- A text that no number goes on with. -/
def Ends (rest : List Char) : Prop :=
  ∀ c ∈ rest.head?, c.isDigit = false ∧ c ≠ '.' ∧ c ≠ 'e' ∧ c ≠ 'E'

theorem Ends.nil : Ends [] := fun _ h => nomatch h

theorem Ends.cons {c : Char} (h : c.isDigit = false ∧ c ≠ '.' ∧ c ≠ 'e' ∧ c ≠ 'E')
    (rest : List Char) : Ends (c :: rest) := by
  intro d hd
  rw [← Option.some.inj hd]
  exact h

/-- The digits in front of what is no digit are all that is taken. -/
theorem takeWhile_isDigit {ds rest : List Char} (hds : ∀ c ∈ ds, c.isDigit = true)
    (hrest : ∀ c ∈ rest.head?, c.isDigit = false) :
    (ds ++ rest).takeWhile Char.isDigit = ds := by
  rw [List.takeWhile_append_of_pos hds]
  cases rest with
  | nil => exact List.append_nil ds
  | cons c rest =>
      rw [List.takeWhile_cons_of_neg (by rw [hrest c rfl]; decide), List.append_nil]

theorem whole?_append {n : Numeral} (h : n.WellFormed) {rest : List Char}
    (hrest : ∀ c ∈ rest.head?, c.isDigit = false) :
    whole? (n.whole ++ rest) = some (n.whole, rest) := by
  simp only [whole?, takeWhile_isDigit h.whole hrest, List.drop_left]
  split
  · next hnil => exact absurd hnil h.whole_ne
  · rfl
  · next hother hzero =>
    have := h.leading (by rw [hzero]; rfl)
    exact absurd (List.cons.inj (hzero.symm.trans this)).2 hother
  · rfl

/-- The point and the digits behind it, if there are any. -/
def fractionChars (ds : List Char) : List Char :=
  if ds.isEmpty then [] else '.' :: ds

/-- The exponent with its sign, if there is one. -/
def exponentChars : Option Exponent → List Char
  | none => []
  | some e => 'e' :: (if e.negative then '-' else '+') :: e.digits

theorem Numeral.chars_eq (n : Numeral) : n.chars =
    (if n.negative then ['-'] else []) ++
      (n.whole ++ (fractionChars n.fraction ++ exponentChars n.exponent)) := by
  simp only [Numeral.chars, List.append_assoc]
  rfl

theorem fraction?_append {ds : List Char} (hds : ∀ c ∈ ds, c.isDigit = true) {rest : List Char}
    (hrest : ∀ c ∈ rest.head?, c.isDigit = false ∧ c ≠ '.') :
    fraction? (fractionChars ds ++ rest) = some (ds, rest) := by
  cases ds with
  | nil =>
      show fraction? rest = some ([], rest)
      rw [fraction?]
      intro after h
      exact (hrest '.' (by rw [h]; rfl)).2 rfl
  | cons d ds =>
      show fraction? ('.' :: (d :: ds ++ rest)) = _
      rw [fraction?, takeWhile_isDigit hds fun c hc => (hrest c hc).1, List.drop_left]
      rfl

theorem exponent?_append {e : Option Exponent}
    (h : ∀ x ∈ e, (∀ c ∈ x.digits, c.isDigit = true) ∧ x.digits ≠ []) {rest : List Char}
    (hrest : Ends rest) : exponent? (exponentChars e ++ rest) = some (e, rest) := by
  cases e with
  | none =>
      show exponent? rest = some (none, rest)
      cases rest with
      | nil => rfl
      | cons c rest =>
          obtain ⟨-, -, hsmall, hlarge⟩ := hrest c rfl
          rw [exponent?, if_neg (by simp [hsmall, hlarge])]
  | some x =>
      obtain ⟨negative, ds⟩ := x
      obtain ⟨hds, hne⟩ := h _ rfl
      have hsign : splitSign ((if negative then '-' else '+') :: (ds ++ rest)) =
          (negative, ds ++ rest) := by
        cases negative <;> rfl
      show exponent? ('e' :: (if negative then '-' else '+') :: (ds ++ rest)) = _
      rw [exponent?, if_pos (by decide), hsign]
      show (if ((ds ++ rest).takeWhile Char.isDigit).isEmpty then none else _) = _
      rw [takeWhile_isDigit hds fun c hc => (hrest c hc).1, List.drop_left,
        if_neg (by simpa using hne)]

/-- What follows the whole part starts with a point or an `e`, or with what ends the number. -/
theorem numeral?_append {n : Numeral} (h : n.WellFormed) {rest : List Char} (hrest : Ends rest) :
    numeral? n.negative
      (n.whole ++ (fractionChars n.fraction ++ exponentChars n.exponent) ++ rest) =
        some (n, rest) := by
  have hexp : ∀ c ∈ (exponentChars n.exponent ++ rest).head?, c.isDigit = false ∧ c ≠ '.' := by
    intro c hc
    cases he : n.exponent with
    | none =>
        rw [he] at hc
        exact ⟨(hrest c hc).1, (hrest c hc).2.1⟩
    | some e =>
        rw [he] at hc
        rw [← Option.some.inj hc]
        decide
  have hfrac : ∀ c ∈ (fractionChars n.fraction ++ (exponentChars n.exponent ++ rest)).head?,
      c.isDigit = false := by
    intro c hc
    rw [fractionChars] at hc
    split at hc
    · exact (hexp c hc).1
    · rw [← Option.some.inj hc]
      decide
  rw [numeral?, List.append_assoc, List.append_assoc, whole?_append h hfrac]
  show (fraction? _).bind _ = _
  rw [fraction?_append h.fraction hexp]
  show (exponent? _).bind _ = _
  rw [exponent?_append h.exponent hrest]
  rfl

/-- A word that starts with a digit is a number. -/
theorem token?_of_isDigit {c : Char} (hc : c.isDigit = true) (cs : List Char) :
    token? (c :: cs) = (numeral? false (c :: cs)).map fun r => (.number r.1, r.2) := by
  have hne : ∀ d : Char, d.isDigit = false → c ≠ d := by
    rintro d hd rfl
    rw [hc] at hd
    cases hd
  rw [token?.eq_def]
  split
  case h_12 =>
    cases numeral? false (c :: cs) <;> rfl
  all_goals
    next h => exact absurd (List.cons.inj h).1 (hne _ (by decide))

/-- A numeral is read back from its characters. -/
theorem token?_chars {n : Numeral} (h : n.WellFormed) {rest : List Char} (hrest : Ends rest) :
    token? (n.chars ++ rest) = some (.number n, rest) := by
  have hread := numeral?_append h hrest
  rw [Numeral.chars_eq]
  cases hsign : n.negative with
  | true =>
      rw [hsign] at hread
      show token? ('-' :: (n.whole ++ _ ++ rest)) = _
      rw [token?, hread]
      rfl
  | false =>
      rw [hsign] at hread
      show token? (n.whole ++ _ ++ rest) = _
      obtain ⟨c, cs, hcs⟩ := List.exists_cons_of_ne_nil h.whole_ne
      rw [hcs] at hread ⊢
      have hdigit : c.isDigit = true := h.whole c (by rw [hcs]; exact List.mem_cons_self)
      rw [List.cons_append, List.cons_append] at hread ⊢
      rw [token?_of_isDigit hdigit, hread]
      rfl

/-! ## Integers -/

/-- The digits of a number that is not zero start with another digit. -/
theorem head?_toDigits {n : Nat} (h : n ≠ 0) : (Nat.toDigits 10 n).head? ≠ some '0' := by
  induction n using Nat.strongRecOn with
  | ind n ih =>
      by_cases hsmall : n < 10
      · rw [Nat.toDigits_of_lt_base hsmall]
        intro hhead
        have hdigit : n.digitChar = '0' := Option.some.inj hhead
        have hall : ∀ m < 10, m ≠ 0 → m.digitChar ≠ '0' := by decide
        exact hall n hsmall h hdigit
      · rw [Nat.toDigits_of_base_le (by decide) (by omega)]
        have hhead := ih (n / 10) (by omega) (by omega)
        rw [List.head?_append, Option.or_of_isSome (List.isSome_head?.mpr Nat.toDigits_ne_nil)]
        exact hhead

theorem Numeral.ofInt_wellFormed (i : Int) : (Numeral.ofInt i).WellFormed where
  whole _ hc := Nat.isDigit_of_mem_toDigits (by decide) (by decide) hc
  whole_ne := Nat.toDigits_ne_nil
  leading h := by
    by_cases hzero : i.natAbs = 0
    · show Nat.toDigits 10 i.natAbs = ['0']
      rw [hzero]
      rfl
    · exact absurd h (head?_toDigits hzero)
  fraction _ hc := nomatch hc
  exponent _ he := nomatch he

/-- The numeral of an integer means that integer. -/
theorem Numeral.int?_ofInt (i : Int) : (Numeral.ofInt i).int? = some i := by
  have hdigits : digitsValue (Nat.toDigits 10 i.natAbs) = i.natAbs :=
    Nat.ofDigitChars_toDigits (by decide) (by decide)
  simp only [Numeral.int?, Numeral.ofInt, List.isEmpty_nil, Option.isNone_none, Bool.and_self,
    if_true, hdigits, decide_eq_true_eq]
  by_cases hneg : i < 0
  · rw [if_pos hneg, if_neg (by omega), Option.some.injEq]
    omega
  · rw [if_neg hneg, Option.some.injEq]
    omega

/-! ## Tokens -/

/-- The text is cut into the tokens, whatever fuel there is beyond its length. -/
def Cuts (cs : List Char) (ts : List Token) : Prop :=
  ∀ fuel, cs.length < fuel → cut fuel cs = some ts

theorem Cuts.tokens? {cs : List Char} {ts : List Token} (h : Cuts cs ts) :
    tokens? cs = some ts :=
  h _ (Nat.lt_succ_self _)

theorem Cuts.nil : Cuts [] []
  | _ + 1, _ => rfl

theorem Cuts.blank {c : Char} (hc : isBlank c = true) {rest : List Char} {ts : List Token}
    (h : Cuts rest ts) : Cuts (c :: rest) ts
  | fuel + 1, hfuel => by
    rw [cut, if_pos hc]
    exact h fuel (Nat.lt_of_succ_lt_succ hfuel)

/-- Blanks in front are left out. -/
theorem Cuts.blanks {bs : List Char} (hbs : ∀ c ∈ bs, isBlank c = true) {rest : List Char}
    {ts : List Token} (h : Cuts rest ts) : Cuts (bs ++ rest) ts := by
  induction bs with
  | nil => exact h
  | cons b bs ih =>
      exact .blank (hbs b List.mem_cons_self) (ih fun c hc => hbs c (List.mem_cons_of_mem _ hc))

/-- A word in front is the first token. -/
theorem Cuts.word (c : Char) (cs : List Char) (hc : isBlank c = false) {rest : List Char}
    {t : Token} {ts : List Token} (ht : token? (c :: cs ++ rest) = some (t, rest))
    (h : Cuts rest ts) :
    Cuts (c :: cs ++ rest) (t :: ts)
  | fuel + 1, hfuel => by
    have hrest : rest.length < fuel := by
      rw [List.length_append, List.length_cons] at hfuel
      omega
    rw [List.cons_append] at ht ⊢
    rw [cut, if_neg (by rw [hc]; decide), ht]
    show (cut fuel rest).bind _ = _
    rw [h fuel hrest]
    rfl

theorem Cuts.literal (s : String) {rest : List Char} {ts : List Token} (h : Cuts rest ts) :
    Cuts (literal s ++ rest) (.text (some s) :: ts) :=
  .word '"' _ (by decide) (token?_literal s rest) h

theorem isBlank_of_isDigit {c : Char} (hc : c.isDigit = true) : isBlank c = false := by
  rw [Bool.eq_false_iff]
  intro hblank
  simp only [isBlank, Bool.or_eq_true, beq_iff_eq, or_assoc] at hblank
  rcases hblank with rfl | rfl | rfl | rfl
  all_goals exact absurd hc (by decide)

/-- A number is a word of its own if what follows does not go on with it. -/
theorem Cuts.number {n : Numeral} (hn : n.WellFormed) {rest : List Char} (hrest : Ends rest)
    {ts : List Token} (h : Cuts rest ts) : Cuts (n.chars ++ rest) (.number n :: ts) := by
  have hread := token?_chars hn hrest
  obtain ⟨c, cs, hcs, hc⟩ : ∃ c cs, n.chars = c :: cs ∧ isBlank c = false := by
    rw [Numeral.chars_eq]
    cases n.negative with
    | true => exact ⟨'-', _, rfl, by decide⟩
    | false =>
        obtain ⟨c, cs, hcs⟩ := List.exists_cons_of_ne_nil hn.whole_ne
        refine ⟨c, _, by rw [hcs]; rfl, isBlank_of_isDigit ?_⟩
        exact hn.whole c (by rw [hcs]; exact List.mem_cons_self)
  rw [hcs] at hread ⊢
  exact .word c cs hc hread h

end IdlScope.Json
