import IdlScope.Proofs.Nesting
import IdlScope.Proofs.Persistence

/-!
# Builds — what building a tree does to a library

A build follows the tree: a file that has a scope is left alone, every other one is met,
checked, built after its includes, and added. The steps are spelled out as equations
(`run_buildTree`, `run_buildIncludes_cons`), and two facts are drawn from them for every
build, whether it goes well or not:

* **`checked_induction`**, **`build_induction`** — what adding a finished file preserves, a build
  preserves, and the library only grows.
* **`Library.Sound`** — a library is closed, and each of its scopes was built from a tree on
  a smaller library, the includes of the tree linked in order (`Linkage.Links`).
-/

namespace IdlScope

/-! ## Trees -/

namespace Tree

/-- The trees in a tree: the tree itself and the trees in its includes, used or not. -/
inductive Within : Tree → Tree → Prop
  | root (t : Tree) : Within t t
  | inside {t u : Tree} {i : Included Tree} (h : i ∈ u.includes) (ht : Within t i.content) :
    Within t u

/-- The trees that a build may come to: the tree itself and the trees in its used includes. -/
inductive Uses : Tree → Tree → Prop
  | root (t : Tree) : Uses t t
  | inside {t u : Tree} {i : Included Tree} (h : i ∈ u.includes) (hused : i.used = true)
    (ht : Uses i.content t) : Uses u t

theorem within_iff {t u : Tree} : Within t u ↔ t = u ∨ ∃ i ∈ u.includes, Within t i.content := by
  constructor
  · rintro (_ | ⟨hi, ht⟩)
    · exact .inl rfl
    · exact .inr ⟨_, hi, ht⟩
  · rintro (rfl | ⟨i, hi, ht⟩)
    · exact .root t
    · exact .inside hi ht

theorem Within.trans {t u v : Tree} (htu : Within t u) (huv : Within u v) : Within t v := by
  induction huv with
  | root => exact htu
  | inside h _ ih => exact .inside h ih

end Tree

/-! ## The steps of a build -/

section Steps

/-- The linkage that the includes of a file start from. -/
def Options.unlinked (o : Options) (d : Document) : Linkage :=
  .new (o.language.package d o.packagePrefix)

theorem run_bind {α β : Type} (x : Build α) (f : α → Build β) (l : Library) :
    (x >>= f).run.run l =
      match x.run.run l with
      | (.ok a, m) => (f a).run.run m
      | (.error e, m) => (.error e, m) := by
  have hdef : (x >>= f).run.run l =
      (ExceptT.bindCont f (x.run.run l).1).run (x.run.run l).2 := rfl
  rw [hdef]
  cases h : x.run.run l with
  | mk r m => cases r <;> rfl

theorem run_lift {α : Type} (x : Except BuildError α) (l : Library) :
    (liftM x : Build α).run.run l = (x, l) := rfl

theorem run_adapt {α : Type} (f : BuildError → BuildError) (x : Build α) (l : Library) :
    (ExceptT.adapt f x : Build α).run.run l =
      ((x.run.run l).1.mapError f, (x.run.run l).2) := rfl

theorem run_set (m l : Library) : (set m : Build PUnit).run.run l = (.ok ⟨⟩, m) := rfl

variable (o : Options) (waiting : List String)

/-- Building a file that has a scope, that waits for itself, or that is new. -/
theorem run_buildTree (d : Document) (is : List (Included Tree)) (l : Library) :
    (buildTree o waiting ⟨d, is⟩).run.run l =
      match l.scope? d.filename with
      | some s => (.ok s, l)
      | none =>
        if d.filename ∈ waiting then
          (.error (.circularInclude (waiting ++ [d.filename])), l)
        else
          match d.check o with
          | .error e => (.error e, l.meet d.filename)
          | .ok _ =>
            match (buildIncludes o d (waiting ++ [d.filename]) is
                (o.unlinked d)).run.run (l.meet d.filename) with
            | (.error e, m) => (.error e, m)
            | (.ok k, m) =>
              match d.scope o m k with
              | .error e => (.error e, m)
              | .ok s => (.ok s, m.add s) := by
  rw [buildTree, run_bind]
  show (match l.scope? d.filename with | some s => _ | none => _ : Build Scope).run.run l = _
  cases l.scope? d.filename with
  | some s => rfl
  | none =>
      dsimp only
      split
      · rfl
      · rw [run_bind, run_set]
        dsimp only
        rw [run_bind, run_lift]
        cases d.check o with
        | error e => rfl
        | ok _ =>
            dsimp only
            rw [run_bind, show Linkage.new (o.language.package d o.packagePrefix) = o.unlinked d
              from rfl]
            cases (buildIncludes o d (waiting ++ [d.filename]) is
                (o.unlinked d)).run.run (l.meet d.filename) with
            | mk result m =>
                cases result with
                | error e => rfl
                | ok k =>
                    dsimp only
                    rw [run_bind]
                    show (liftM (d.scope o m k) >>= fun s => _ : Build Scope).run.run m = _
                    rw [run_bind, run_lift]
                    cases d.scope o m k <;> rfl

/-- Building an include and the ones behind it. -/
theorem run_buildIncludes_cons (d : Document) (path : String) (used : Bool) (t : Tree)
    (is : List (Included Tree)) (k : Linkage) (l : Library) :
    (buildIncludes o d waiting (⟨path, used, t⟩ :: is) k).run.run l =
      if used then
        match (buildTree o waiting t).run.run l with
        | (.error e, m) => (.error (.through d.filename path e), m)
        | (.ok s, m) =>
          (buildIncludes o d waiting is (k.append o.language s.document s.package).2).run.run m
      else (buildIncludes o d waiting is k.skip).run.run l := by
  rw [buildIncludes, run_bind, buildInclude]
  cases used with
  | false => rfl
  | true =>
      rw [if_pos rfl, if_pos rfl, run_bind]
      rw [run_adapt]
      cases (buildTree o waiting t).run.run l with
      | mk result m => cases result <;> rfl

/-- How building a file on a library may end: the result, and the library afterwards. -/
inductive Ends (d : Document) (is : List (Included Tree)) (l : Library) :
    Except BuildError Scope → Library → Prop
  | cached {s : Scope} (hs : l.scope? d.filename = some s) : Ends d is l (.ok s) l
  | circular (hfree : l.scope? d.filename = none) (hwaits : d.filename ∈ waiting) :
    Ends d is l (.error (.circularInclude (waiting ++ [d.filename]))) l
  | rejected {e : BuildError} (hfree : l.scope? d.filename = none) (hnew : d.filename ∉ waiting)
    (hcheck : d.check o = .error e) : Ends d is l (.error e) (l.meet d.filename)
  | blocked {e : BuildError} {m : Library} (hfree : l.scope? d.filename = none)
    (hnew : d.filename ∉ waiting) (hcheck : d.check o = .ok ())
    (hincludes : (buildIncludes o d (waiting ++ [d.filename]) is (o.unlinked d)).run.run
      (l.meet d.filename) = (.error e, m)) : Ends d is l (.error e) m
  | failed {e : BuildError} {k : Linkage} {m : Library} (hfree : l.scope? d.filename = none)
    (hnew : d.filename ∉ waiting) (hcheck : d.check o = .ok ())
    (hincludes : (buildIncludes o d (waiting ++ [d.filename]) is (o.unlinked d)).run.run
      (l.meet d.filename) = (.ok k, m)) (hscope : d.scope o m k = .error e) :
    Ends d is l (.error e) m
  | built {s : Scope} {k : Linkage} {m : Library} (hfree : l.scope? d.filename = none)
    (hnew : d.filename ∉ waiting) (hcheck : d.check o = .ok ())
    (hincludes : (buildIncludes o d (waiting ++ [d.filename]) is (o.unlinked d)).run.run
      (l.meet d.filename) = (.ok k, m)) (hscope : d.scope o m k = .ok s) :
    Ends d is l (.ok s) (m.add s)

theorem ends_buildTree (d : Document) (is : List (Included Tree)) (l : Library) :
    Ends o waiting d is l ((buildTree o waiting ⟨d, is⟩).run.run l).1
      ((buildTree o waiting ⟨d, is⟩).run.run l).2 := by
  rw [run_buildTree]
  cases hcached : l.scope? d.filename with
  | some s => exact .cached hcached
  | none =>
      dsimp only
      split
      · next hwaits => exact .circular hcached hwaits
      · next hnew =>
        cases hcheck : d.check o with
        | error e => exact .rejected hcached hnew hcheck
        | ok _ =>
            dsimp only
            cases hincludes : (buildIncludes o d (waiting ++ [d.filename]) is
              (o.unlinked d)).run.run (l.meet d.filename) with
            | mk result m =>
                cases result with
                | error e => exact .blocked hcached hnew hcheck hincludes
                | ok k =>
                    dsimp only
                    cases hscope : d.scope o m k with
                    | error e => exact .failed hcached hnew hcheck hincludes hscope
                    | ok s => exact .built hcached hnew hcheck hincludes hscope

end Steps

/-! ## Linked includes -/

namespace Linkage

/-- Linking the includes of a document in order, each to the scope that the library has of it,
leads from one linkage to another. -/
inductive Links (l : Library) (g : Language) : List (Included Tree) → Linkage → Linkage → Prop
  | nil (k : Linkage) : Links l g [] k k
  | used {path : String} {t : Tree} {is : List (Included Tree)} {k k' : Linkage} {s : Scope}
    (hs : l.scope? t.filename = some s)
    (h : Links l g is (k.append g s.document s.package).2 k') :
    Links l g (⟨path, true, t⟩ :: is) k k'
  | unused {path : String} {t : Tree} {is : List (Included Tree)} {k k' : Linkage}
    (h : Links l g is k.skip k') : Links l g (⟨path, false, t⟩ :: is) k k'

namespace Links

variable {l : Library} {g : Language} {is : List (Included Tree)} {k k' : Linkage}

theorem le (h : Links l g is k k') : k ≤ k' := by
  induction h with
  | nil k => exact le_refl k
  | used _ _ ih => exact (le_append _ _ _ _).trans ih
  | unused _ ih => exact (le_skip _).trans ih

theorem covered (h : Links l g is k k') (hk : k.Covered l) : k'.Covered l := by
  induction h with
  | nil k => exact hk
  | @used _ t _ _ _ s hs _ ih =>
      refine ih (hk.append g ?_ _)
      have hname : s.document.filename = t.filename := Library.filename_of_scope? hs
      exact ⟨s, hname ▸ hs⟩
  | unused _ ih => exact ih hk.skip

theorem tidy (h : Links l g is k k') (hk : k.Tidy) : k'.Tidy := by
  induction h with
  | nil k => exact hk
  | used _ _ ih => exact ih (hk.append _ _ _)
  | unused _ ih => exact ih hk.skip

/-- Every include has its place. -/
theorem length_includes (h : Links l g is k k') :
    k'.includes.length = k.includes.length + is.length := by
  induction h with
  | nil k => rfl
  | @used _ _ _ k _ s _ _ ih =>
      have happend : ((k.append g s.document s.package).2).includes.length =
          k.includes.length + 1 := by
        rw [append]
        dsimp only
        split <;> simp
      rw [ih, happend, List.length_cons]
      omega
  | @unused _ _ _ k _ _ ih =>
      rw [ih, skip, List.length_append, List.length_singleton, List.length_cons]
      omega

end Links

end Linkage

/-! ## What a build preserves -/

theorem Document.document_of_scope {d : Document} {o : Options} {l : Library} {k : Linkage}
    {s : Scope} (h : d.scope o l k = .ok s) : s.document = d := by
  obtain ⟨r, resolved, done, h⟩ := Document.scope_eq_ok h
  rw [h.result]

theorem Document.filename_of_scope {d : Document} {o : Options} {l : Library} {k : Linkage}
    {s : Scope} (h : d.scope o l k = .ok s) : s.filename = d.filename :=
  congrArg Document.filename (Document.document_of_scope h)

/-- A finished file that had no scope is found under its name. -/
theorem Document.scope?_add {d : Document} {o : Options} {l m : Library} {k : Linkage} {s : Scope}
    (h : d.scope o l k = .ok s) (hfree : m.scope? d.filename = none) (file : String) :
    (m.add s).scope? file = if file = d.filename then some s else m.scope? file := by
  rw [← filename_of_scope h] at hfree ⊢
  exact Library.scope?_add hfree file

/-- What a build of a file has done to a library, whether it went well or not. -/
structure Kept (I : Library → Prop) (waiting : List String) (l m : Library) : Prop where
  holds : I m
  le : l ≤ m
  /-- A file keeps its number. -/
  files : l.files <+: m.files
  waiting : ∀ f ∈ waiting, l.scope? f = none → m.scope? f = none

theorem Kept.refl {I : Library → Prop} (waiting : List String) {l : Library} (h : I l) :
    Kept I waiting l l :=
  ⟨h, le_refl l, List.prefix_refl _, fun _ _ h => h⟩

theorem Kept.trans {I : Library → Prop} {waiting : List String} {l m n : Library}
    (h : Kept I waiting l m) (h' : Kept I waiting m n) : Kept I waiting l n :=
  ⟨h'.holds, h.le.trans h'.le, h.files.trans h'.files,
    fun f hf hl => h'.waiting f hf (h.waiting f hf hl)⟩

/-- A file without a scope still has none after its includes were built, because it waits. -/
theorem Kept.free {I : Library → Prop} {waiting : List String} {file : String} {l m : Library}
    (h : Kept I (waiting ++ [file]) (l.meet file) m) (hfree : l.scope? file = none) :
    m.scope? file = none := by
  refine h.waiting file (by simp) ?_
  rwa [Library.scope?_meet]

/-- Building includes one after the other keeps what building each of them keeps, and links
them if all goes well. -/
theorem kept_includes {o : Options} {I : Library → Prop} (d : Document) (waiting : List String)
    (is : List (Included Tree))
    (hbuild : ∀ i ∈ is, i.used = true → ∀ l, I l →
      Kept I waiting l ((buildTree o waiting i.content).run.run l).2 ∧
      ∀ s, ((buildTree o waiting i.content).run.run l).1 = .ok s →
        ((buildTree o waiting i.content).run.run l).2.scope? i.content.filename = some s)
    (l : Library) (k : Linkage) (hl : I l) :
    Kept I waiting l ((buildIncludes o d waiting is k).run.run l).2 ∧
    ∀ k', ((buildIncludes o d waiting is k).run.run l).1 = .ok k' →
      Linkage.Links ((buildIncludes o d waiting is k).run.run l).2 o.language is k k' := by
  induction is generalizing l k with
  | nil =>
      refine ⟨.refl _ hl, ?_⟩
      rintro _ ⟨⟩
      exact .nil k
  | cons i is ih =>
      obtain ⟨path, used, u⟩ := i
      have hrest := ih fun j hj => hbuild j (List.mem_cons_of_mem _ hj)
      rw [run_buildIncludes_cons]
      cases used with
      -- an unused include only takes its place in the linkage
      | false =>
          obtain ⟨hkept, hlinks⟩ := hrest l k.skip hl
          exact ⟨hkept, fun k' hk' => .unused (hlinks k' hk')⟩
      | true =>
          obtain ⟨hfirst, hfound⟩ := hbuild _ List.mem_cons_self rfl l hl
          rw [if_pos rfl]
          -- the includes behind start from the library that this one leaves
          generalize (buildTree o waiting u).run.run l = result at hfirst hfound
          obtain ⟨result, m⟩ := result
          cases result with
          | error e => exact ⟨hfirst, fun _ h => by cases h⟩
          | ok s =>
              obtain ⟨hkept, hlinks⟩ :=
                hrest m (k.append o.language s.document s.package).2 hfirst.holds
              exact ⟨hfirst.trans hkept, fun k' hk' =>
                .used (hkept.le _ _ (hfound s rfl)) (hlinks k' hk')⟩

section Induction

variable {o : Options} {I : Library → Prop} {P : Tree → Prop}
  (hP : ∀ t, P t → ∀ i ∈ t.includes, i.used = true → P i.content)
  (hmeet : ∀ t l, P t → I l → I (l.meet t.filename))
include hP hmeet

/-- What meeting a file and adding a finished one preserves, every build preserves. A file
that was built has its scope in the library. -/
theorem checked_induction
    (hadd : ∀ (t : Tree) l k s, P t → I l → t.filename ∈ l.files → l.scope? t.filename = none →
      t.document.check o = .ok () →
      Linkage.Links l o.language t.includes (o.unlinked t.document) k →
      t.document.scope o l k = .ok s → I (l.add s))
    (t : Tree) (ht : P t) (waiting : List String) (l : Library) (hl : I l) :
    Kept I waiting l ((buildTree o waiting t).run.run l).2 ∧
    ∀ s, ((buildTree o waiting t).run.run l).1 = .ok s →
      ((buildTree o waiting t).run.run l).2.scope? t.filename = some s := by
  induction t using Tree.induct generalizing waiting l with
  | step d is ih =>
      have hmet : Kept I waiting l (l.meet d.filename) :=
        ⟨hmeet _ l ht hl, Library.le_meet l _, Library.files_meet l _, fun f _ h => by
          rwa [Library.scope?_meet]⟩
      obtain ⟨hkept, hlinks⟩ := kept_includes d (waiting ++ [d.filename]) is
        (fun i hi hused l hl => ih i hi (hP _ ht i hi hused) _ l hl)
        (l.meet d.filename) (o.unlinked d) hmet.holds
      -- to its caller the build shows no more than the files that the caller waits for
      have hall := hmet.trans ⟨hkept.holds, hkept.le, hkept.files,
        fun f hf => hkept.waiting f (List.mem_append_left _ hf)⟩
      have hends := ends_buildTree o waiting d is l
      generalize (buildTree o waiting ⟨d, is⟩).run.run l = result at hends ⊢
      obtain ⟨result, n⟩ := result
      dsimp only at hends ⊢
      -- of all ways to end, only the last one adds a scope
      cases hends with
      | cached hs =>
          refine ⟨.refl _ hl, ?_⟩
          rintro _ ⟨⟩
          exact hs
      | circular => exact ⟨.refl _ hl, fun _ h => by cases h⟩
      | rejected => exact ⟨hmet, fun _ h => by cases h⟩
      | blocked _ _ _ hincludes =>
          rw [hincludes] at hall
          exact ⟨hall, fun _ h => by cases h⟩
      | failed _ _ _ hincludes =>
          rw [hincludes] at hall
          exact ⟨hall, fun _ h => by cases h⟩
      | @built s k m hfree hnew hcheck hincludes hscope =>
          rw [hincludes] at hall hkept hlinks
          have hfree := hkept.free hfree
          have hnumber : d.filename ∈ m.files :=
            hkept.files.subset (Library.mem_files_meet l d.filename)
          have hscope? := Document.scope?_add hscope hfree
          refine ⟨hall.trans ⟨hadd ⟨d, is⟩ m k s ht hkept.holds hnumber hfree hcheck
            (hlinks k rfl) hscope, Library.le_add m s, List.prefix_refl _, ?_⟩, ?_⟩
          · intro f hf hnone
            rw [hscope?, if_neg]
            · exact hnone
            · rintro rfl
              exact hnew hf
          · rintro _ ⟨⟩
            rw [hscope?]
            exact if_pos rfl

/-- The same for what does not go by the annotations of a file. -/
theorem build_induction
    (hadd : ∀ (t : Tree) l k s, P t → I l → t.filename ∈ l.files → l.scope? t.filename = none →
      Linkage.Links l o.language t.includes (o.unlinked t.document) k →
      t.document.scope o l k = .ok s → I (l.add s))
    (t : Tree) (ht : P t) (waiting : List String) (l : Library) (hl : I l) :
    Kept I waiting l ((buildTree o waiting t).run.run l).2 ∧
    ∀ s, ((buildTree o waiting t).run.run l).1 = .ok s →
      ((buildTree o waiting t).run.run l).2.scope? t.filename = some s :=
  checked_induction hP hmeet (fun t l k s ht hl hfile hfree _ hlinks hscope =>
    hadd t l k s ht hl hfile hfree hlinks hscope) t ht waiting l hl

end Induction

/-- What every build does, whatever it is of. -/
theorem kept_any (o : Options) (t : Tree) (waiting : List String) (l : Library) :
    Kept (fun _ => True) waiting l ((buildTree o waiting t).run.run l).2 ∧
    ∀ s, ((buildTree o waiting t).run.run l).1 = .ok s →
      ((buildTree o waiting t).run.run l).2.scope? t.filename = some s :=
  build_induction (P := fun _ => True) (fun _ _ _ _ _ => trivial) (fun _ _ _ _ => trivial)
    (fun _ _ _ _ _ _ _ _ _ _ => trivial) t trivial waiting l trivial

/-- Includes that were built are linked. -/
theorem links_of_buildIncludes {o : Options} {d : Document} {waiting : List String}
    {is : List (Included Tree)} {l m : Library} {k k' : Linkage}
    (h : (buildIncludes o d waiting is k).run.run l = (.ok k', m)) :
    Kept (fun _ => True) waiting l m ∧ Linkage.Links m o.language is k k' := by
  obtain ⟨hkept, hlinks⟩ := kept_includes (I := fun _ => True) d waiting is
    (fun i _ _ l _ => kept_any o i.content waiting l) l k trivial
  rw [h] at hkept hlinks
  exact ⟨hkept, hlinks k' rfl⟩

/-! ## Sound libraries -/

/-- The scope is the one of a tree, built on a library that the includes were linked in. -/
structure Scope.Built (s : Scope) (o : Options) (t : Tree) (l : Library) (k : Linkage) : Prop where
  closed : l.Closed
  /-- The library had no scope of the file yet. -/
  free : l.scope? t.filename = none
  links : Linkage.Links l o.language t.includes (o.unlinked t.document) k
  scope : t.document.scope o l k = .ok s

theorem covered_unlinked (o : Options) (d : Document) (l : Library) : (o.unlinked d).Covered l :=
  fun _ hi => absurd hi List.not_mem_nil

theorem Scope.Built.covered {s : Scope} {o : Options} {t : Tree} {l : Library} {k : Linkage}
    (h : s.Built o t l k) : k.Covered l :=
  h.links.covered (covered_unlinked o t.document l)

theorem Scope.Built.tidy {s : Scope} {o : Options} {t : Tree} {l : Library} {k : Linkage}
    (h : s.Built o t l k) : k.Tidy :=
  h.links.tidy (Linkage.tidy_new _)

/-- A closed library stays closed when a finished file is added: its includes lead to files of
the library that it was built on. -/
theorem Scope.Built.closed_add {s : Scope} {o : Options} {t : Tree} {l : Library} {k : Linkage}
    (h : s.Built o t l k) : (l.add s).Closed := by
  intro f u hu i hi
  refine Library.Knows.mono (Library.le_add l s) ?_
  rw [Document.scope?_add h.scope h.free] at hu
  split at hu
  · cases hu
    exact Document.covered_of_scope h.closed h.covered h.scope i hi
  · exact h.closed f u hu i hi

/-- A library is closed, and each scope in it is the one of a tree with `P`, built when the
library was smaller. -/
structure Library.Sound (o : Options) (P : Tree → Prop) (l : Library) : Prop where
  closed : l.Closed
  built : ∀ file s, l.scope? file = some s → ∃ t m k, P t ∧ m ≤ l ∧ s.Built o t m k

namespace Library.Sound

variable {o : Options} {P : Tree → Prop} {l : Library}

theorem empty (o : Options) (P : Tree → Prop) : Sound o P .empty :=
  ⟨fun _ _ h => (by cases h), fun _ _ h => (by cases h)⟩

theorem imp (h : l.Sound o P) {Q : Tree → Prop} (hPQ : ∀ t, P t → Q t) : l.Sound o Q := by
  refine ⟨h.closed, fun file s hs => ?_⟩
  obtain ⟨t, m, k, ht, hbuilt⟩ := h.built file s hs
  exact ⟨t, m, k, hPQ t ht, hbuilt⟩

theorem meet (h : l.Sound o P) (file : String) : (l.meet file).Sound o P := by
  refine ⟨h.closed.meet file, ?_⟩
  intro f s hs
  rw [scope?_meet] at hs
  obtain ⟨t, m, k, ht, hle, hbuilt⟩ := h.built f s hs
  exact ⟨t, m, k, ht, hle.trans (le_meet l file), hbuilt⟩

theorem add (h : l.Sound o P) {t : Tree} {k : Linkage} {s : Scope} (ht : P t)
    (hbuilt : s.Built o t l k) : (l.add s).Sound o P := by
  refine ⟨hbuilt.closed_add, ?_⟩
  intro f u hu
  rw [Document.scope?_add hbuilt.scope hbuilt.free] at hu
  split at hu
  · cases hu
    exact ⟨t, l, k, ht, le_add l s, hbuilt⟩
  · obtain ⟨v, m, j, hv, hle, hv'⟩ := h.built f u hu
    exact ⟨v, m, j, hv, hle.trans (le_add l s), hv'⟩

end Library.Sound

/-- Every build keeps a library sound, whether it goes well or not. -/
theorem kept_sound {o : Options} {P : Tree → Prop}
    (hP : ∀ t, P t → ∀ i ∈ t.includes, i.used = true → P i.content) (t : Tree) (ht : P t)
    (waiting : List String) {l : Library} (hl : l.Sound o P) :
    Kept (Library.Sound o P) waiting l ((buildTree o waiting t).run.run l).2 ∧
    ∀ s, ((buildTree o waiting t).run.run l).1 = .ok s →
      ((buildTree o waiting t).run.run l).2.scope? t.filename = some s :=
  build_induction hP (fun _ _ _ h => h.meet _)
    (fun _ _ _ _ ht h _ hfree hlinks hscope => h.add ht ⟨h.closed, hfree, hlinks, hscope⟩)
    t ht waiting l hl

end IdlScope
