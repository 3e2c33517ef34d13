import IdlScope.Text.Quoted

/-!
# Literals — a quoted text is read back, and ends where it should

The writer of a literal goes character by character and looks neither back nor ahead. A reader
knows one rule: behind the opening quote a backslash takes the next character along, and the first
quote that no backslash takes along ends the literal. The two meet in the glyphs of the literal,
one for each character of the text.

* **`glyphs?_eq_some_iff`** — the glyphs that the reader finds are all that stands before the quote
  at which it stops.
* **`escapeOf?_eq_some_iff`** — writing and reading an escape undo each other.
* **`unescape_eq_some_iff`** — the strict reader takes the written form of a text, and no other.
* **`quote_reads_back`** — `quote s` is a literal of `s`, the only one, and ends at its last
  character whatever stands behind it.
-/

namespace IdlScope.Text

/-! ## A reader of literals -/

/-- A glyph of a literal: a character on its own, or a backslash with the one that it takes
along. -/
inductive Glyph where
  | plain (c : Char)
  | escaped (e : Char)
  deriving DecidableEq, Repr

/-- The characters that a glyph consists of. -/
def Glyph.chars : Glyph → List Char
  | plain c => [c]
  | escaped e => ['\\', e]

/-- The character that a glyph stands for, if there is such an escape. -/
def Glyph.meaning? : Glyph → Option Char
  | plain c => some c
  | escaped e => escapedBy? e

/-- The glyphs up to the first quote that no backslash takes along, and what stands behind it. -/
def glyphs? : List Char → Option (List Glyph × List Char)
  | [] => none
  | '"' :: rest => some ([], rest)
  | ['\\'] => none
  | '\\' :: e :: rest => (glyphs? rest).map fun r => (.escaped e :: r.1, r.2)
  | c :: rest => (glyphs? rest).map fun r => (.plain c :: r.1, r.2)

/-- No quote and no backslash stands on its own, since a reader takes them otherwise. -/
def Glyph.Apart : Glyph → Prop
  | plain c => c ≠ '"' ∧ c ≠ '\\'
  | escaped _ => True

theorem glyphs?_plain {c : Char} (hquote : c ≠ '"') (hback : c ≠ '\\') (rest : List Char) :
    glyphs? (c :: rest) = (glyphs? rest).map fun r => (.plain c :: r.1, r.2) := by
  rw [glyphs?]
  · exact hquote
  · intro h _
    exact hback h
  · intro _ _ h _
    exact hback h

/-- One glyph is read as it was put in front of the others. -/
theorem Glyph.Apart.glyphs?_chars {g : Glyph} (h : g.Apart) (rest : List Char) :
    glyphs? (g.chars ++ rest) = (glyphs? rest).map fun r => (g :: r.1, r.2) := by
  cases g with
  | plain c => exact glyphs?_plain h.1 h.2 rest
  | escaped e => rfl

theorem map_cons_eq_some_iff {g : Glyph} {gs : List Glyph} {after : List Char}
    {r : Option (List Glyph × List Char)} :
    (r.map fun r => (g :: r.1, r.2)) = some (gs, after) ↔
      ∃ others, gs = g :: others ∧ r = some (others, after) := by
  constructor
  · intro h
    obtain ⟨⟨others, after⟩, hr, heq⟩ := Option.map_eq_some_iff.mp h
    obtain ⟨rfl, rfl⟩ := Prod.mk.inj heq
    exact ⟨others, rfl, hr⟩
  · rintro ⟨others, rfl, rfl⟩
    rfl

theorem Glyph.Apart.before {g : Glyph} (hg : g.Apart) {rest after : List Char} {gs : List Glyph}
    (h : rest = gs.flatMap chars ++ '"' :: after ∧ ∀ g ∈ gs, g.Apart) :
    g.chars ++ rest = (g :: gs).flatMap chars ++ '"' :: after ∧ ∀ x ∈ g :: gs, x.Apart := by
  obtain ⟨rfl, hapart⟩ := h
  refine ⟨?_, List.forall_mem_cons.mpr ⟨hg, hapart⟩⟩
  rw [List.flatMap_cons, List.append_assoc]

/-- What the reader finds is all that stands before the quote at which it stops. -/
theorem glyphs?_eq_some_iff {cs after : List Char} {gs : List Glyph} :
    glyphs? cs = some (gs, after) ↔
      cs = gs.flatMap Glyph.chars ++ '"' :: after ∧ ∀ g ∈ gs, g.Apart := by
  constructor
  · intro h
    fun_induction glyphs? cs generalizing gs with
    | case1 => exact nomatch h
    | case2 rest =>
      obtain ⟨rfl, rfl⟩ := Prod.mk.inj (Option.some.inj h)
      exact ⟨rfl, fun _ hg => nomatch hg⟩
    | case3 => exact nomatch h
    | case4 e rest ih =>
      have hescaped : Glyph.Apart (.escaped e) := trivial
      obtain ⟨others, rfl, hrest⟩ := map_cons_eq_some_iff.mp h
      exact hescaped.before (ih hrest)
    | case5 c rest hquote hlone hback ih =>
      -- a backslash is no plain glyph, neither at the end nor before another character
      have hplain : Glyph.Apart (.plain c) := by
        refine ⟨hquote, fun hc => ?_⟩
        cases rest with
        | nil => exact hlone hc rfl
        | cons e rest => exact hback e rest hc rfl
      obtain ⟨others, rfl, hrest⟩ := map_cons_eq_some_iff.mp h
      exact hplain.before (ih hrest)
  · rintro ⟨rfl, hapart⟩
    induction gs with
    | nil => rfl
    | cons g gs ih =>
        obtain ⟨hg, hgs⟩ := List.forall_mem_cons.mp hapart
        rw [List.flatMap_cons, List.append_assoc, hg.glyphs?_chars, ih hgs, Option.map_some]

/-- Of the two backslashes before a quote the first takes the second along, and not the quote. -/
example : glyphs? "\\\\\"; x".toList = some ([.escaped '\\'], "; x".toList) := by decide

/-! ## Escapes -/

/-- Writing and reading an escape undo each other. -/
theorem escapeOf?_eq_some_iff {c e : Char} : escapeOf? c = some e ↔ escapedBy? e = some c := by
  constructor
  · intro h
    rw [escapeOf?.eq_def] at h
    split at h <;> cases h <;> rfl
  · intro h
    rw [escapedBy?.eq_def] at h
    split at h <;> cases h <;> rfl

theorem escapeOf?_eq_none_iff {c : Char} :
    escapeOf? c = none ↔ c ∉ ['"', '\\', '\n', '\r', '\t'] := by
  constructor
  · intro h hc
    simp only [List.mem_cons, List.not_mem_nil, or_false] at hc
    rcases hc with rfl | rfl | rfl | rfl | rfl <;> cases h
  · intro h
    rw [escapeOf?.eq_def]
    split <;> simp at h ⊢

theorem ne_of_escapeOf?_eq_none {c : Char} (h : escapeOf? c = none) : c ≠ '"' ∧ c ≠ '\\' := by
  have hc := escapeOf?_eq_none_iff.mp h
  constructor
  · rintro rfl
    exact hc (by decide)
  · rintro rfl
    exact hc (by decide)

/-- The five characters that may follow a backslash. -/
theorem isSome_escapedBy?_iff {e : Char} :
    (escapedBy? e).isSome ↔ e ∈ ['"', '\\', 'n', 'r', 't'] := by
  constructor
  · rw [escapedBy?.eq_def]
    split <;> simp
  · intro h
    simp only [List.mem_cons, List.not_mem_nil, or_false] at h
    rcases h with rfl | rfl | rfl | rfl | rfl <;> rfl

/-- The glyph that a character is written as. -/
def glyphOf (c : Char) : Glyph :=
  match escapeOf? c with
  | some e => .escaped e
  | none => .plain c

theorem glyphOf_of_some {c e : Char} (h : escapeOf? c = some e) : glyphOf c = .escaped e := by
  rw [glyphOf, h]

theorem glyphOf_of_none {c : Char} (h : escapeOf? c = none) : glyphOf c = .plain c := by
  rw [glyphOf, h]

theorem chars_glyphOf (c : Char) : (glyphOf c).chars = escape c := by
  rw [glyphOf, escape]
  cases escapeOf? c <;> rfl

theorem meaning?_glyphOf (c : Char) : (glyphOf c).meaning? = some c := by
  cases h : escapeOf? c with
  | none => rw [glyphOf_of_none h, Glyph.meaning?]
  | some e => rw [glyphOf_of_some h, Glyph.meaning?, escapeOf?_eq_some_iff.mp h]

theorem apart_glyphOf (c : Char) : (glyphOf c).Apart := by
  cases h : escapeOf? c with
  | none =>
    rw [glyphOf_of_none h]
    exact ne_of_escapeOf?_eq_none h
  | some e =>
    rw [glyphOf_of_some h]
    trivial

theorem escapedBy?_of_glyphOf {c e : Char} (h : glyphOf c = .escaped e) :
    escapedBy? e = some c := by
  have hmeaning := meaning?_glyphOf c
  rwa [h] at hmeaning

/-- Every character is written without a line end and without a tab. -/
theorem not_mem_escape {b : Char} (hb : b ∈ ['\n', '\r', '\t']) (c : Char) : b ∉ escape c := by
  -- each of them needs an escape, and none of them stands in one
  have ⟨hneeds, hescapes⟩ :
      b ∈ ['"', '\\', '\n', '\r', '\t'] ∧ b ∉ ['"', '\\', 'n', 'r', 't'] := by
    simp only [List.mem_cons, List.not_mem_nil, or_false] at hb
    rcases hb with rfl | rfl | rfl <;> decide
  rw [escape]
  cases h : escapeOf? c with
  | none =>
    intro hmem
    obtain rfl : b = c := List.mem_singleton.mp hmem
    exact escapeOf?_eq_none_iff.mp h hneeds
  | some e =>
    have he : e ∈ ['"', '\\', 'n', 'r', 't'] :=
      isSome_escapedBy?_iff.mp (by rw [escapeOf?_eq_some_iff.mp h]; rfl)
    intro hmem
    rcases List.mem_cons.mp hmem with rfl | hmem
    · exact hescapes (by decide)
    · obtain rfl : b = e := List.mem_singleton.mp hmem
      exact hescapes he

/-- A character that needs no escape, or an escape, is the glyph of what it means. -/
theorem eq_glyphOf {g : Glyph} {c : Char} (hplain : ∀ d, g = .plain d → escapeOf? d = none)
    (hmeaning : g.meaning? = some c) : g = glyphOf c := by
  cases g with
  | plain d =>
    obtain rfl : d = c := Option.some.inj hmeaning
    exact (glyphOf_of_none (hplain d rfl)).symm
  | escaped e => exact (glyphOf_of_some (escapeOf?_eq_some_iff.mpr hmeaning)).symm

theorem eq_map_glyphOf {gs : List Glyph} {cs : List Char}
    (hplain : ∀ d, .plain d ∈ gs → escapeOf? d = none)
    (hmeaning : gs.map Glyph.meaning? = cs.map some) : gs = cs.map glyphOf := by
  induction gs generalizing cs with
  | nil =>
      cases cs with
      | nil => rfl
      | cons c cs => exact nomatch hmeaning
  | cons g gs ih =>
      cases cs with
      | nil => exact nomatch hmeaning
      | cons c cs =>
          obtain ⟨hg, hgs⟩ := List.cons.inj hmeaning
          have hhead : g = glyphOf c :=
            eq_glyphOf (fun d hd => hplain d (hd ▸ List.mem_cons_self)) hg
          rw [List.map_cons, hhead, ih (fun d hd => hplain d (List.mem_cons_of_mem g hd)) hgs]

/-! ## The strict reader -/

theorem unescape_escape (c : Char) (rest : List Char) :
    unescape (escape c ++ rest) = (unescape rest).map (c :: ·) := by
  rw [escape]
  cases h : escapeOf? c with
  | some e =>
    show unescape ('\\' :: e :: rest) = _
    rw [unescape, escapeOf?_eq_some_iff.mp h]
  | none =>
    obtain ⟨hquote, hback⟩ := ne_of_escapeOf?_eq_none h
    show unescape (c :: rest) = _
    rw [unescape, h]
    · rfl
    · exact hquote
    · intro _ _ hc _
      exact hback hc

/-- The strict reader takes the written form of a text, and nothing else. -/
theorem unescape_eq_some_iff {cs s : List Char} :
    unescape cs = some s ↔ cs = s.flatMap escape ++ ['"'] := by
  constructor
  · intro h
    fun_induction unescape cs generalizing s with
    | case1 => exact nomatch h
    | case2 rest hrest =>
      obtain rfl : [] = s := Option.some.inj h
      rw [List.isEmpty_iff.mp hrest]
      rfl
    | case3 => exact nomatch h
    | case4 e rest c he ih =>
      obtain ⟨s, hrest, rfl⟩ := Option.map_eq_some_iff.mp h
      rw [List.flatMap_cons, escape, escapeOf?_eq_some_iff.mpr he, ih hrest]
      rfl
    | case5 => exact nomatch h
    | case6 => exact nomatch h
    | case7 c rest _ _ hplain ih =>
      obtain ⟨s, hrest, rfl⟩ := Option.map_eq_some_iff.mp h
      rw [List.flatMap_cons, escape, Option.not_isSome_iff_eq_none.mp hplain, ih hrest]
      rfl
  · rintro rfl
    induction s with
    | nil => rfl
    | cons c s ih => rw [List.flatMap_cons, List.append_assoc, unescape_escape, ih, Option.map_some]

theorem toList_quote (s : String) :
    (quote s).toList = '"' :: ((s.toList.map glyphOf).flatMap Glyph.chars ++ ['"']) := by
  rw [quote, String.toList_ofList, List.flatMap_map]
  simp only [chars_glyphOf]

theorem unquote_eq_some_iff {s t : String} : unquote t = some s ↔ t = quote s := by
  constructor
  · intro h
    rw [unquote] at h
    split at h
    · next rest ht =>
      obtain ⟨cs, hcs, rfl⟩ := Option.map_eq_some_iff.mp h
      apply String.toList_inj.mp
      rw [ht, quote, String.toList_ofList, String.toList_ofList, unescape_eq_some_iff.mp hcs]
    · exact nomatch h
  · rintro rfl
    rw [unquote, quote, String.toList_ofList]
    show (unescape (s.toList.flatMap escape ++ ['"'])).map String.ofList = some s
    rw [unescape_eq_some_iff.mpr rfl, Option.map_some, String.ofList_toList]

theorem quote_injective : Function.Injective quote := by
  intro s s' h
  have hread : unquote (quote s) = some s' := unquote_eq_some_iff.mpr h
  rw [unquote_eq_some_iff.mpr rfl] at hread
  exact Option.some.inj hread

/-! ## Literals -/

/-- The text `t` is a literal of `s`, and these are its glyphs. -/
structure ReadsAs (t : String) (gs : List Glyph) (s : String) : Prop where
  /-- It begins with a quote. -/
  opens : t.toList.head? = some '"'
  /-- Of all quotes behind it, the first that no backslash takes along is the last character. -/
  closes : glyphs? t.toList.tail = some (gs, [])
  /-- No line end and no tab stands in it. -/
  unbroken : '\n' ∉ t.toList ∧ '\r' ∉ t.toList ∧ '\t' ∉ t.toList
  /-- Every backslash that is met begins one of the five escapes. -/
  escapes : ∀ e, .escaped e ∈ gs → e ∈ ['"', '\\', 'n', 'r', 't']
  /-- With every escape replaced by its character it is the text `s`. -/
  means : gs.map Glyph.meaning? = s.toList.map some

theorem glyphs?_quote (s : String) (after : List Char) :
    glyphs? ((quote s).toList.tail ++ after) = some (s.toList.map glyphOf, after) := by
  rw [toList_quote, List.tail_cons, List.append_assoc, glyphs?_eq_some_iff]
  refine ⟨rfl, fun g hg => ?_⟩
  obtain ⟨c, -, rfl⟩ := List.mem_map.mp hg
  exact apart_glyphOf c

theorem not_mem_quote {b : Char} (hb : b ∈ ['\n', '\r', '\t']) (s : String) :
    b ∉ (quote s).toList := by
  have hquote : b ≠ '"' := by
    rintro rfl
    exact absurd hb (by decide)
  rw [quote, String.toList_ofList]
  intro hmem
  rcases List.mem_cons.mp hmem with h | hmem
  · exact hquote h
  · rcases List.mem_append.mp hmem with h | h
    · obtain ⟨c, -, hc⟩ := List.mem_flatMap.mp h
      exact not_mem_escape hb c hc
    · exact hquote (List.mem_singleton.mp h)

theorem readsAs_quote (s : String) : ReadsAs (quote s) (s.toList.map glyphOf) s where
  opens := by rw [toList_quote, List.head?_cons]
  closes := by
    have h := glyphs?_quote s []
    rwa [List.append_nil] at h
  unbroken :=
    ⟨not_mem_quote (by decide) s, not_mem_quote (by decide) s, not_mem_quote (by decide) s⟩
  escapes := by
    intro e he
    obtain ⟨c, -, hc⟩ := List.mem_map.mp he
    rw [← isSome_escapedBy?_iff, escapedBy?_of_glyphOf hc]
    rfl
  means := by
    rw [List.map_map]
    exact List.map_congr_left fun c _ => meaning?_glyphOf c

/-- A character that stands on its own in a literal needs no escape. -/
theorem ReadsAs.escapeOf?_eq_none {t s : String} {gs : List Glyph} {c : Char}
    (h : ReadsAs t gs s) (hapart : Glyph.Apart (.plain c)) (hmem : c ∈ t.toList) :
    escapeOf? c = none := by
  obtain ⟨hfeed, hreturn, htab⟩ := h.unbroken
  rw [escapeOf?_eq_none_iff]
  intro hneeds
  simp only [List.mem_cons, List.not_mem_nil, or_false] at hneeds
  rcases hneeds with rfl | rfl | rfl | rfl | rfl
  · exact hapart.1 rfl
  · exact hapart.2 rfl
  · exact hfeed hmem
  · exact hreturn hmem
  · exact htab hmem

theorem ReadsAs.eq_quote {t s : String} {gs : List Glyph} (h : ReadsAs t gs s) : t = quote s := by
  obtain ⟨rest, htext⟩ := List.head?_eq_some_iff.mp h.opens
  have hcloses := h.closes
  rw [htext, List.tail_cons] at hcloses
  obtain ⟨rfl, hapart⟩ := glyphs?_eq_some_iff.mp hcloses
  have hplain : ∀ c, .plain c ∈ gs → escapeOf? c = none := by
    intro c hc
    refine h.escapeOf?_eq_none (hapart _ hc) ?_
    rw [htext]
    refine List.mem_cons_of_mem _ (List.mem_append_left _ ?_)
    exact List.mem_flatMap.mpr ⟨.plain c, hc, List.mem_singleton_self c⟩
  apply String.toList_inj.mp
  rw [htext, toList_quote, eq_map_glyphOf hplain h.means]

/-- **A quoted text is well formed and loses nothing.** It is a literal of the text and ends at its
last character, whatever stands behind it. It is the only literal of the text, and the only one
that the strict reader takes back to it. So different texts have different literals. -/
theorem quote_reads_back :
    (∀ s : String,
      (∃ gs, ReadsAs (quote s) gs s ∧
        ∀ after, glyphs? ((quote s).toList.tail ++ after) = some (gs, after)) ∧
      (∀ t gs, ReadsAs t gs s → t = quote s) ∧
      ∀ t, unquote t = some s ↔ t = quote s) ∧
    Function.Injective quote := by
  refine ⟨fun s => ⟨?_, ?_, ?_⟩, quote_injective⟩
  · exact ⟨s.toList.map glyphOf, readsAs_quote s, glyphs?_quote s⟩
  · intro t gs h
    exact h.eq_quote
  · intro t
    exact unquote_eq_some_iff

namespace Sample

/-- The name of a folder in quotes. The name itself ends in a backslash. -/
def folder : String := "\"C:\\\""

/-- The name as a literal: three backslashes stand before its last two quotes. -/
def folderLiteral : String := "\"\\\"C:\\\\\\\"\""

end Sample

/-- The backslash of the name takes neither of the quotes behind it along. -/
theorem quote_reads_back_folder :
    ReadsAs Sample.folderLiteral
        [.escaped '"', .plain 'C', .plain ':', .escaped '\\', .escaped '"'] Sample.folder ∧
      Sample.folderLiteral = quote Sample.folder ∧
      unquote Sample.folderLiteral = some Sample.folder := by
  have hreads : ReadsAs Sample.folderLiteral
      [.escaped '"', .plain 'C', .plain ':', .escaped '\\', .escaped '"'] Sample.folder := by
    refine ⟨by decide, by decide, by decide, ?_, by decide⟩
    intro e he
    simp only [List.mem_cons, Glyph.escaped.injEq, reduceCtorEq, List.not_mem_nil, or_false,
      false_or] at he
    rcases he with rfl | rfl | rfl <;> decide
  obtain ⟨-, honly, hread⟩ := quote_reads_back.1 Sample.folder
  have ht := honly Sample.folderLiteral _ hreads
  exact ⟨hreads, ht, (hread _).mpr ht⟩

end IdlScope.Text
