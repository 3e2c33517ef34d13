import IdlScope.Proofs.Words

/-!
# Layouts — data is read back from its lines

The route from data to a text and back has two halves, and the tokens stand between them.

* **`WellFormed.cuts`** — the lines of well-formed data are cut into the tokens of the data; the
  line ends and blanks of the layout go lost, and nothing else.
* **`WellFormed.readsBack`** — well-formed data is read back from its tokens, if the fuel is twice
  their number.
* **`ofText?_pretty`** — so well-formed data is read back from its pretty text.
-/

namespace IdlScope.Json.Value

/-- Data that a text can write: every text is there, and every number is a numeral of JSON. -/
inductive WellFormed : Value → Prop
  | null : WellFormed .null
  | bool (b : Bool) : WellFormed (.bool b)
  | number {n : Numeral} (h : n.WellFormed) : WellFormed (.number n)
  | text (s : String) : WellFormed (.text (some s))
  | array {vs : List Value} (h : ∀ v ∈ vs, WellFormed v) : WellFormed (.array vs)
  | object {ms : List (Option String × Value)} (hkeys : ∀ m ∈ ms, m.1.isSome = true)
    (h : ∀ m ∈ ms, WellFormed m.2) : WellFormed (.object ms)

/-! ## The tokens of data -/

mutual

/-- The tokens that write a value. -/
def tokens : Value → List Token
  | .null => [.null]
  | .bool b => [.bool b]
  | .number n => [.number n]
  | .text s => [.text s]
  | .array [] => [.openArray, .closeArray]
  | .array (v :: vs) => .openArray :: (tokens v ++ (itemTokens vs ++ [.closeArray]))
  | .object [] => [.openObject, .closeObject]
  | .object (m :: ms) => .openObject :: (memberTokens m ++ (moreTokens ms ++ [.closeObject]))
termination_by structural v => v

/-- The tokens of the items after the first. -/
def itemTokens : List Value → List Token
  | [] => []
  | v :: vs => .comma :: (tokens v ++ itemTokens vs)
termination_by structural vs => vs

/-- The tokens of a member. -/
def memberTokens : Option String × Value → List Token
  | (key, v) => .text key :: .colon :: tokens v
termination_by structural m => m

/-- The tokens of the members after the first. -/
def moreTokens : List (Option String × Value) → List Token
  | [] => []
  | m :: ms => .comma :: (memberTokens m ++ moreTokens ms)
termination_by structural ms => ms

end

/-- A value starts with a token that closes nothing. -/
theorem tokens_eq_cons (v : Value) : ∃ t ts, v.tokens = t :: ts ∧ t ≠ .closeArray := by
  match v with
  | .null | .bool _ | .number _ | .text _ | .array [] | .array (_ :: _) | .object []
  | .object (_ :: _) =>
    exact ⟨_, _, by rw [tokens], by intro h; cases h⟩

/-! ## From lines to tokens -/

theorem cuts_newline (depth : Nat) {rest : List Char} {ts : List Token} (h : Cuts rest ts) :
    Cuts (newline depth ++ rest) ts := by
  refine .blanks ?_ h
  intro c hc
  rcases List.mem_cons.mp hc with rfl | hc
  · decide
  · rw [List.eq_of_mem_replicate hc]
    decide

theorem ends_newline (depth : Nat) (rest : List Char) : Ends (newline depth ++ rest) :=
  .cons (by decide) _

/-- The lines of a value are its tokens, whatever follows that a number does not go on with. -/
def CutsBack (v : Value) : Prop :=
  ∀ (depth : Nat) {rest : List Char} {ts : List Token}, Ends rest → Cuts rest ts →
    Cuts (layout depth v ++ rest) (v.tokens ++ ts)

section

variable (depth : Nat) {rest : List Char} {ts : List Token}

/-- The items after the first, up to a line end. -/
theorem cuts_layoutItems {vs : List Value} (h : ∀ v ∈ vs, v.CutsBack) (hrest : Ends rest)
    (hcut : Cuts rest ts) :
    Ends (layoutItems depth vs ++ rest) ∧
      Cuts (layoutItems depth vs ++ rest) (itemTokens vs ++ ts) := by
  induction vs with
  | nil => exact ⟨hrest, hcut⟩
  | cons v vs ih =>
      obtain ⟨hends, hcuts⟩ := ih fun w hw => h w (List.mem_cons_of_mem _ hw)
      have hitem := cuts_newline depth (h v List.mem_cons_self depth hends hcuts)
      rw [layoutItems, itemTokens]
      simp only [List.cons_append, List.append_assoc]
      exact ⟨.cons (by decide) _, .word ',' [] (by decide) rfl hitem⟩

theorem cuts_layoutMember (key : String) {v : Value} (h : v.CutsBack) (hrest : Ends rest)
    (hcut : Cuts rest ts) :
    Cuts (layoutMember depth (some key, v) ++ rest) (memberTokens (some key, v) ++ ts) := by
  rw [layoutMember, memberTokens, List.append_assoc, List.append_assoc]
  refine .literal key ?_
  exact .word ':' [] (by decide) rfl (.blank (by decide) (h depth hrest hcut))

/-- The members after the first, up to a line end. -/
theorem cuts_layoutMembers {ms : List (Option String × Value)}
    (hkeys : ∀ m ∈ ms, m.1.isSome = true) (h : ∀ m ∈ ms, m.2.CutsBack) (hrest : Ends rest)
    (hcut : Cuts rest ts) :
    Ends (layoutMembers depth ms ++ rest) ∧
      Cuts (layoutMembers depth ms ++ rest) (moreTokens ms ++ ts) := by
  induction ms with
  | nil => exact ⟨hrest, hcut⟩
  | cons m ms ih =>
      obtain ⟨hends, hcuts⟩ := ih (fun n hn => hkeys n (List.mem_cons_of_mem _ hn))
        (fun n hn => h n (List.mem_cons_of_mem _ hn))
      obtain ⟨key, v⟩ := m
      obtain ⟨key, rfl⟩ := Option.isSome_iff_exists.mp (hkeys _ List.mem_cons_self)
      have hmember := cuts_newline depth
        (cuts_layoutMember depth key (h _ List.mem_cons_self) hends hcuts)
      rw [layoutMembers, moreTokens]
      simp only [List.cons_append, List.append_assoc]
      exact ⟨.cons (by decide) _, .word ',' [] (by decide) rfl hmember⟩

end

/-- Well-formed data is laid out as its tokens. -/
theorem WellFormed.cuts {v : Value} (h : v.WellFormed) : v.CutsBack := by
  induction h with
  | null =>
      intro depth rest ts _ hcut
      exact .word 'n' ['u', 'l', 'l'] (by decide) rfl hcut
  | bool b =>
      intro depth rest ts _ hcut
      cases b with
      | true => exact .word 't' ['r', 'u', 'e'] (by decide) rfl hcut
      | false => exact .word 'f' ['a', 'l', 's', 'e'] (by decide) rfl hcut
  | number hn =>
      intro depth rest ts hrest hcut
      exact .number hn hrest hcut
  | text s =>
      intro depth rest ts _ hcut
      exact .literal s hcut
  | @array vs _ ih =>
      intro depth rest ts hrest hcut
      have hclose : Cuts (']' :: rest) (.closeArray :: ts) := .word ']' [] (by decide) rfl hcut
      cases vs with
      | nil => exact .word '[' [] (by decide) rfl hclose
      | cons v vs =>
          obtain ⟨hends, hcuts⟩ := cuts_layoutItems (depth + 1)
            (fun w hw => ih w (List.mem_cons_of_mem _ hw)) (ends_newline depth _)
            (cuts_newline depth hclose)
          have hfirst := cuts_newline (depth + 1)
            (ih v List.mem_cons_self (depth + 1) hends hcuts)
          rw [layout, tokens]
          simp only [List.cons_append, List.append_assoc, List.nil_append]
          exact .word '[' [] (by decide) rfl hfirst
  | @object ms hkeys _ ih =>
      intro depth rest ts hrest hcut
      have hclose : Cuts ('\x7d' :: rest) (.closeObject :: ts) :=
        .word '\x7d' [] (by decide) rfl hcut
      cases ms with
      | nil => exact .word '\x7b' [] (by decide) rfl hclose
      | cons m ms =>
          obtain ⟨key, v⟩ := m
          obtain ⟨key, rfl⟩ := Option.isSome_iff_exists.mp (hkeys _ List.mem_cons_self)
          obtain ⟨hends, hcuts⟩ := cuts_layoutMembers (depth + 1)
            (fun n hn => hkeys n (List.mem_cons_of_mem _ hn))
            (fun n hn => ih n (List.mem_cons_of_mem _ hn)) (ends_newline depth _)
            (cuts_newline depth hclose)
          have hfirst := cuts_newline (depth + 1)
            (cuts_layoutMember (depth + 1) key (ih _ List.mem_cons_self) hends
              hcuts)
          rw [layout, tokens]
          simp only [List.cons_append, List.append_assoc, List.nil_append]
          exact .word '\x7b' [] (by decide) rfl hfirst

/-! ## From tokens to data -/

/-- A value is read from its tokens, whatever stands behind them. -/
def ReadsBack (v : Value) : Prop :=
  ∀ {fuel : Nat} (rest : List Token), 2 * v.tokens.length ≤ fuel →
    read fuel (v.tokens ++ rest) = some (v, rest)

/-- The items of an array are read up to its bracket. An item takes a step for itself and one for
its place in the list, and its tokens are paid for twice. -/
theorem readItems_tokens {v : Value} {vs : List Value} (fuel : Nat) (rest : List Token)
    (h : ∀ w ∈ v :: vs, w.ReadsBack)
    (hfuel : 2 * (v.tokens ++ itemTokens vs).length + 1 ≤ fuel) :
    readItems fuel (v.tokens ++ (itemTokens vs ++ .closeArray :: rest)) = some (v :: vs, rest) := by
  induction vs generalizing v fuel with
  | nil =>
      obtain ⟨fuel, rfl⟩ := Nat.exists_eq_add_of_le' (Nat.le_of_add_left_le hfuel)
      rw [List.length_append] at hfuel
      rw [readItems, h v List.mem_cons_self _ (by omega)]
      rfl
  | cons w vs ih =>
      obtain ⟨fuel, rfl⟩ := Nat.exists_eq_add_of_le' (Nat.le_of_add_left_le hfuel)
      have hmore : readItems fuel (w.tokens ++ (itemTokens vs ++ .closeArray :: rest)) =
          some (w :: vs, rest) := by
        refine ih fuel (fun u hu => h u (List.mem_cons_of_mem _ hu)) ?_
        simp only [itemTokens, List.length_append, List.length_cons] at hfuel ⊢
        omega
      rw [List.length_append] at hfuel
      rw [readItems, h v List.mem_cons_self _ (by omega), itemTokens, List.cons_append,
        List.append_assoc]
      show (readItems fuel _).bind _ = _
      rw [hmore]
      rfl

/-- The members of an object are read up to its brace. -/
theorem readMembers_tokens {m : Option String × Value} {ms : List (Option String × Value)}
    (fuel : Nat) (rest : List Token) (h : ∀ n ∈ m :: ms, n.2.ReadsBack)
    (hfuel : 2 * (memberTokens m ++ moreTokens ms).length + 1 ≤ fuel) :
    readMembers fuel (memberTokens m ++ (moreTokens ms ++ .closeObject :: rest)) =
      some (m :: ms, rest) := by
  induction ms generalizing m fuel with
  | nil =>
      obtain ⟨fuel, rfl⟩ := Nat.exists_eq_add_of_le' (Nat.le_of_add_left_le hfuel)
      obtain ⟨key, v⟩ := m
      have hv : v.ReadsBack := h _ List.mem_cons_self
      simp only [memberTokens, List.length_append, List.length_cons] at hfuel
      rw [memberTokens, List.cons_append, List.cons_append, readMembers, hv _ (by omega)]
      rfl
  | cons n ms ih =>
      obtain ⟨fuel, rfl⟩ := Nat.exists_eq_add_of_le' (Nat.le_of_add_left_le hfuel)
      obtain ⟨key, v⟩ := m
      have hv : v.ReadsBack := h _ List.mem_cons_self
      have hmore : readMembers fuel (memberTokens n ++ (moreTokens ms ++ .closeObject :: rest)) =
          some (n :: ms, rest) := by
        refine ih fuel (fun u hu => h u (List.mem_cons_of_mem _ hu)) ?_
        simp only [moreTokens, List.length_append, List.length_cons] at hfuel ⊢
        omega
      simp only [memberTokens, List.length_append, List.length_cons] at hfuel
      rw [memberTokens, List.cons_append, List.cons_append, readMembers, hv _ (by omega),
        moreTokens, List.cons_append, List.append_assoc]
      show (readMembers fuel _).bind _ = _
      rw [hmore]
      rfl

/-- Well-formed data is read back from its tokens. -/
theorem WellFormed.readsBack {v : Value} (h : v.WellFormed) : v.ReadsBack := by
  induction h with
  | null | bool _ | number _ | text _ =>
      intro fuel rest hfuel
      obtain ⟨fuel, rfl⟩ := Nat.exists_eq_add_of_le' (Nat.le_of_lt hfuel)
      rfl
  | @array vs _ ih =>
      intro fuel rest hfuel
      cases vs with
      | nil =>
          obtain ⟨fuel, rfl⟩ := Nat.exists_eq_add_of_le' (Nat.le_trans (by decide) hfuel : 1 ≤ fuel)
          rfl
      | cons v vs =>
          rw [tokens, List.length_cons] at hfuel
          obtain ⟨fuel, rfl⟩ := Nat.exists_eq_add_of_le' (by omega : 1 ≤ fuel)
          have hitems := readItems_tokens fuel rest ih (by
            simp only [List.length_append, List.length_cons] at hfuel ⊢
            omega)
          -- the first item does not start with the closing bracket
          obtain ⟨t, ts, ht, hne⟩ := tokens_eq_cons v
          rw [tokens]
          simp only [List.cons_append, List.append_assoc, List.nil_append]
          rw [ht] at hitems ⊢
          rw [List.cons_append] at hitems ⊢
          rw [read]
          · rw [hitems]
            rfl
          · intro rest' h
            exact hne (List.cons.inj h).1
  | @object ms _ _ ih =>
      intro fuel rest hfuel
      cases ms with
      | nil =>
          obtain ⟨fuel, rfl⟩ := Nat.exists_eq_add_of_le' (Nat.le_trans (by decide) hfuel : 1 ≤ fuel)
          rfl
      | cons m ms =>
          rw [tokens, List.length_cons] at hfuel
          obtain ⟨fuel, rfl⟩ := Nat.exists_eq_add_of_le' (by omega : 1 ≤ fuel)
          have hmembers := readMembers_tokens fuel rest ih (by
            simp only [List.length_append, List.length_cons] at hfuel ⊢
            omega)
          rw [tokens]
          simp only [List.cons_append, List.append_assoc, List.nil_append]
          obtain ⟨key, v⟩ := m
          rw [memberTokens] at hmembers ⊢
          rw [List.cons_append, List.cons_append] at hmembers ⊢
          rw [read]
          · rw [hmembers]
            rfl
          · intro rest' h
            cases h

/-- Well-formed data is read back from its pretty text. -/
theorem ofText?_pretty {v : Value} (h : v.WellFormed) : ofText? v.pretty = some v := by
  have htokens : tokens? (layout 0 v) = some v.tokens := by
    have := h.cuts 0 .nil .nil
    rw [List.append_nil, List.append_nil] at this
    exact this.tokens?
  have hread : read (2 * v.tokens.length + 2) v.tokens = some (v, []) := by
    have := h.readsBack [] (Nat.le_add_right (2 * v.tokens.length) 2)
    rwa [List.append_nil] at this
  rw [ofText?, pretty, String.toList_ofList, htokens, Option.bind_some, ofTokens?, hread]

end IdlScope.Json.Value
