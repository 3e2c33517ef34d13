import IdlScope.Target.Package

/-!
# Namespaces — which declaration names a package

A document may declare namespaces for words: for the words of a language, or for the wildcard `*`.
A language asks for its words in order, and each question falls back to the wildcard on its own. So
the wildcard comes right behind the first word, and a second word comes behind the wildcard.

* **`Document.declaredNamespace?_eq_some_iff`** — of the declarations for one word the first one
  counts.
* **`Language.domain_eq`** — the namespace of a package is that of the first word that is declared,
  in the order of `Language.asked`, or else the stem of the file.
* **`own_words_first_iff`** — this is the namespace that the words of the language say, before the
  wildcard is looked at, unless the wildcard shadows a second word.

A TypeScript file with a namespace for `typescript` and another for `*` is put into the wildcard's
package, therefore (`wildcard_shadows_word`).
-/

namespace IdlScope

/-! ## Declarations for a word -/

namespace Document

/-- The first declaration for the word says the name. -/
def FirstDeclares (d : Document) (word name : String) : Prop :=
  ∃ before after, d.namespaces = before ++ ⟨word, name⟩ :: after ∧ ∀ n ∈ before, n.language ≠ word

theorem declaredNamespace?_eq_some_iff {d : Document} {word name : String} :
    d.declaredNamespace? word = some name ↔ d.FirstDeclares word name := by
  rw [declaredNamespace?, Option.map_eq_some_iff]
  constructor
  · rintro ⟨⟨language, name⟩, hfound, rfl⟩
    obtain ⟨hword, before, after, heq, hbefore⟩ := List.find?_eq_some_iff_append.mp hfound
    obtain rfl : language = word := by simpa using hword
    exact ⟨before, after, heq, fun n hn => by simpa using hbefore n hn⟩
  · rintro ⟨before, after, heq, hbefore⟩
    refine ⟨⟨word, name⟩, List.find?_eq_some_iff_append.mpr ⟨by simp, before, after, heq, ?_⟩, rfl⟩
    exact fun n hn => by simpa using hbefore n hn

/-- What the first of the words that is declared says, or else the stem of the file. -/
def settle (d : Document) (words : List String) : String :=
  (words.findSome? d.declaredNamespace?).getD d.stem

theorem settle_nil (d : Document) : d.settle [] = d.stem := by
  rw [settle, List.findSome?_nil, Option.getD_none]

theorem settle_cons (d : Document) (word : String) (words : List String) :
    d.settle (word :: words) = (d.declaredNamespace? word).getD (d.settle words) := by
  rw [settle, settle, List.findSome?_cons]
  cases d.declaredNamespace? word with
  | none => rw [Option.getD_none]
  | some name => rw [Option.getD_some, Option.getD_some]

/-- The wildcard shadows a word of the language: it is asked for before `typescript` is, where `ts`
says nothing, and it says something else. -/
def Shadows (d : Document) (g : Language) : Prop :=
  g = .typescript ∧ d.declaredNamespace? "ts" = none ∧
    ∃ own wild, d.FirstDeclares "typescript" own ∧ d.FirstDeclares "*" wild ∧ own ≠ wild

end Document

/-! ## Packages -/

namespace Language

/-- The words by which namespaces are declared for the language. -/
def words : Language → List String
  | .go => ["go"]
  | .typescript => ["ts", "typescript"]
  | .openApi => []

/-- The words in the order in which they are asked for. -/
def asked : Language → List String
  | .go => ["go", "*"]
  | .typescript => ["ts", "*", "typescript"]
  | .openApi => []

/-- The import path of the package of a namespace. -/
def pathOf (g : Language) (head domain : String) : String :=
  match g with
  | .typescript =>
    if head = "" then "./" ++ domainPath domain else joinPath head (domainPath domain)
  | .go | .openApi => joinPath head (domainPath domain)

/-- The question for the first word includes the one for the wildcard. -/
theorem domain_eq {g : Language} (hg : g ≠ .openApi) (d : Document) (head : String) :
    (g.package d head).domain = d.settle g.asked := by
  cases g with
  | openApi => exact absurd rfl hg
  | go =>
      dsimp only [package, asked]
      rw [Document.settle_cons, Document.settle_cons, Document.settle_nil, Document.namespaceFor?,
        Option.getD_or]
  | typescript =>
      dsimp only [package, asked]
      rw [Document.settle_cons, Document.settle_cons, Document.settle_cons, Document.settle_nil,
        Document.namespaceFor?, Document.namespaceFor?]
      generalize d.declaredNamespace? "ts" = first
      generalize d.declaredNamespace? "*" = wild
      cases first with
      | some name => rw [Option.some_or, Option.some_or, Option.getD_some, Option.getD_some]
      | none =>
          cases wild with
          | some name => rw [Option.none_or, Option.some_or, Option.getD_none, Option.getD_some,
              Option.getD_some]
          | none => rw [Option.none_or, Option.none_or, Option.or_none, Option.getD_none,
              Option.getD_none]

/-- The order matters only if the wildcard shadows a word. -/
theorem settle_asked_iff {g : Language} (hg : g ≠ .openApi) (d : Document) :
    d.settle g.asked = d.settle (g.words ++ ["*"]) ↔ ¬ d.Shadows g := by
  cases g with
  | openApi => exact absurd rfl hg
  | go => exact iff_of_true rfl fun h => by cases h.1
  | typescript =>
      show d.settle ["ts", "*", "typescript"] = d.settle ["ts", "typescript", "*"] ↔ _
      simp only [Document.Shadows, ← Document.declaredNamespace?_eq_some_iff, Document.settle_cons,
        true_and]
      generalize d.declaredNamespace? "ts" = first
      generalize d.declaredNamespace? "typescript" = second
      generalize d.declaredNamespace? "*" = wild
      cases first with
      | some name => simp
      | none =>
          -- only two declarations can be in each other's way
          cases wild with
          | none => simp
          | some name =>
              cases second with
              | none => simp
              | some own => simp [eq_comm]

end Language

/-- **A language's own words come before the wildcard, unless it shadows one.** The path and the
alias of a package come from its namespace. This is what the first declaration for the first
declared word says, in the order that the language asks in, and the stem of the file if none is
declared. It is the namespace that the own words of the language lead to, ahead of the wildcard,
exactly if the wildcard does not shadow one of them. It never does for Go, nor if `ts` is
declared. -/
theorem own_words_first_iff {g : Language} (hg : g ≠ .openApi) (d : Document) (head : String) :
    let p := g.package d head
    p.path = g.pathOf head p.domain ∧ p.preferredAlias = aliasOf p.domain ∧
      p.domain = d.settle g.asked ∧
      (∀ word name, d.declaredNamespace? word = some name ↔ d.FirstDeclares word name) ∧
      (p.domain = d.settle (g.words ++ ["*"]) ↔ ¬ d.Shadows g) := by
  intro p
  have hdomain : p.domain = d.settle g.asked := Language.domain_eq hg d head
  refine ⟨?_, ?_, hdomain, fun _ _ => Document.declaredNamespace?_eq_some_iff, ?_⟩
  · cases g with
    | openApi => exact absurd rfl hg
    | go | typescript => dsimp only [p, Language.package, Language.pathOf]
  · cases g with
    | openApi => exact absurd rfl hg
    | go | typescript => dsimp only [p, Language.package]
  · rw [hdomain]
    exact Language.settle_asked_iff hg d

namespace Sample

/-- A file that declares several namespaces, two of them for one word. -/
def declaring : Document :=
  { Document.empty "idl/user.thrift" with
    namespaces := [⟨"*", "shared"⟩, ⟨"typescript", "old.user"⟩, ⟨"ts", "api.User"⟩,
      ⟨"ts", "late"⟩] }

/-- A file that declares a namespace for the longer word of TypeScript only, and a wildcard. -/
def shadowed : Document :=
  { Document.empty "idl/user.thrift" with
    namespaces := [⟨"*", "shared"⟩, ⟨"typescript", "api.user"⟩] }

end Sample

set_option maxRecDepth 100000 in
/-- The first declaration for the first word counts, though it comes third. -/
theorem own_words_first_iff_declaring : Language.typescript ≠ .openApi ∧
    let p := Language.typescript.package Sample.declaring ""
    p.domain = "api.User" ∧ p.path = "./api/User" ∧ p.preferredAlias = "user" ∧
      ¬ Sample.declaring.Shadows .typescript := by
  have hlanguage : Language.typescript ≠ .openApi := by decide
  obtain ⟨hpath, halias, hdomain, -, hiff⟩ :=
    own_words_first_iff hlanguage Sample.declaring ""
  have hsettled : Sample.declaring.settle ["ts", "*", "typescript"] = "api.User" ∧
      Sample.declaring.settle ["ts", "typescript", "*"] = "api.User" := by decide +kernel
  have hown := hdomain.trans hsettled.1
  refine ⟨hlanguage, hown, ?_, ?_, hiff.mp (hown.trans hsettled.2.symm)⟩
  · rw [hpath, hown]
    decide +kernel
  · rw [halias, hown]
    decide +kernel

set_option maxRecDepth 100000 in
/-- The wildcard decides where the file goes, and not the declaration for TypeScript. -/
theorem wildcard_shadows_word :
    Language.typescript.package Sample.shadowed "" = ⟨"shared", "./shared", "shared"⟩ ∧
      Sample.shadowed.FirstDeclares "typescript" "api.user" ∧
      Sample.shadowed.settle (Language.typescript.words ++ ["*"]) = "api.user" := by
  refine ⟨by decide +kernel, ?_, by decide +kernel⟩
  rw [← Document.declaredNamespace?_eq_some_iff]
  decide +kernel

end IdlScope
