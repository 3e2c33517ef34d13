import IdlScope.Proofs.Refusals
import IdlScope.Proofs.Runs

/-!
# Include errors — the way from a tree to the file that failed

A file that cannot be built is told by every file on the way to it, unless it is on a circle of
includes: a circle is told as the chain of files itself. Either way the error is a walk along used
includes that starts at the root:

* **`Tree.Path`** — used includes, each of them one of the file that the one before leads to.
* **`BuildError.along`** — the error of a file as the files along a path tell it.
* **`Tree.FailsAlone`** — a file whose own construction fails, its includes being built.
* **`buildOnStack`** — a build that keeps the files that wait on a stack; `buildOnStack_eq` says
  that it is the build, and that it leaves the stack as it was.
* **`build_error_traces_path`** — whatever the library knows, a failed build tells a circle along
  a path, or a file at the end of a path that failed by itself.
-/

namespace IdlScope

namespace Tree

/-- The includes lead from one tree to another, and all of them are used. -/
inductive Path : Tree → List (Included Tree) → Tree → Prop
  | here (t : Tree) : Path t [] t
  | step {t u : Tree} {i : Included Tree} {path : List (Included Tree)} (hi : i ∈ t.includes)
    (hused : i.used = true) (h : Path i.content path u) : Path t (i :: path) u

/-- The files along a path, the one that it starts from first. -/
def route (t : Tree) (path : List (Included Tree)) : List String :=
  t.filename :: path.map fun i => i.content.filename

/-- The file has no scope yet, it is checked, and its construction fails on the library, in which
its includes were linked. -/
structure FailsAlone (o : Options) (l : Library) (t : Tree) (e : BuildError) : Prop where
  free : l.scope? t.filename = none
  fails : t.document.check o = .error e ∨
    ∃ k, Linkage.Links l o.language t.includes (o.unlinked t.document) k ∧
      t.document.scope o l k = .error e

end Tree

namespace BuildError

/-- The error as the files along a path tell it. -/
def along (cause : BuildError) : String → List (Included Tree) → BuildError
  | _, [] => cause
  | file, i :: path => .failedInclude file i.path (cause.along i.content.filename path)

/-- The error is of a single file, neither a circle nor an include that failed. -/
def IsOwn : BuildError → Prop
  | .circularInclude _ | .failedInclude .. => False
  | _ => True

theorem through_eq {e : BuildError} (h : ∀ chain, e ≠ .circularInclude chain)
    (file path : String) : e.through file path = .failedInclude file path e := by
  cases e with
  | circularInclude chain => exact absurd rfl (h chain)
  | _ => rfl

variable {cause : BuildError}

theorem IsOwn.ne_circularInclude (h : cause.IsOwn) (chain : List String) :
    cause ≠ .circularInclude chain := by
  rintro rfl
  exact h

theorem along_ne_circularInclude (h : cause.IsOwn) (file : String) (path : List (Included Tree))
    (chain : List String) : cause.along file path ≠ .circularInclude chain := by
  cases path with
  | nil => exact h.ne_circularInclude chain
  | cons i path => exact nofun

/-- Inside all includes there is the error that started it. -/
theorem root_along (h : cause.IsOwn) (file : String) (path : List (Included Tree)) :
    (cause.along file path).root = cause := by
  induction path generalizing file with
  | nil =>
      cases cause with
      | circularInclude => exact h.elim
      | failedInclude => exact h.elim
      | _ => rfl
  | cons i path ih => exact ih i.content.filename

end BuildError

/-! ## Files that fail by themselves -/

section Own

variable {o : Options} {l : Library} {e : BuildError}

theorem badFlag?_eq_some {file owner : String} {as : Annotations} {keys : List String}
    (h : badFlag? file owner as keys = some e) :
    ∃ key value, e = .malformedFlag file owner key value := by
  obtain ⟨key, -, h⟩ := List.exists_of_findSome?_eq_some h
  obtain ⟨value, -, rfl⟩ := Option.map_eq_some_iff.mp h
  exact ⟨key, value, rfl⟩

/-- A document is refused for an annotation in one of its structures. -/
theorem Document.check_eq_error {d : Document} (h : d.check o = .error e) :
    ∃ owner key value, e = .malformedFlag d.filename owner key value := by
  have hflag : d.badFlag? = some e := by
    rw [check] at h
    split at h
    · next bad hbad =>
      obtain rfl := Except.error.inj h
      split at hbad
      · exact hbad
      · cases hbad
    · cases h
  obtain ⟨s, -, hs⟩ := List.exists_of_findSome?_eq_some hflag
  rcases Option.or_eq_some_iff.mp hs with hs | ⟨-, hs⟩
  · exact ⟨_, badFlag?_eq_some hs⟩
  · obtain ⟨f, -, hf⟩ := List.exists_of_findSome?_eq_some hs
    exact ⟨_, badFlag?_eq_some hf⟩

theorem Site.Refuses.isOwn {w : Site} (h : w.Refuses e) : e.IsOwn := by
  cases h with
  | identifier | conflict | repeated => trivial
  | unplanned _ hplans =>
      obtain ⟨raw, rfl⟩ | ⟨_, _, _, _, _, _, _, _, rfl⟩ := planSlots_eq_error hplans
      · trivial
      · trivial

/-- The error of a file that fails by itself is its own. -/
theorem Tree.FailsAlone.isOwn {t : Tree} (h : t.FailsAlone o l e) : e.IsOwn := by
  rcases h.fails with h | ⟨k, -, h⟩
  · obtain ⟨owner, key, value, rfl⟩ := Document.check_eq_error h
    trivial
  · rcases Document.scope_eq_error h with h | ⟨error, rfl⟩
    · exact (Site.refuses_of_roster h).isOwn
    · trivial

end Own

/-! ## Walks through a failed build -/

/-- What building a tree on a library below files that wait may end with. -/
inductive Traces (o : Options) (l : Library) (waiting : List String) (t : Tree) :
    BuildError → Prop
  /-- The path comes back to a file that waits or to one on the path. -/
  | circle {path : List (Included Tree)} {u : Tree} (hpath : t.Path path u)
    (hfree : ∀ file ∈ t.route path, l.scope? file = none)
    (honce : (waiting ++ t.route path).dropLast.Nodup)
    (hback : u.filename ∈ (waiting ++ t.route path).dropLast) :
    Traces o l waiting t (.circularInclude (waiting ++ t.route path))
  /-- The file at the end of the path fails by itself. -/
  | fault {path : List (Included Tree)} {u : Tree} (hpath : t.Path path u)
    (hfree : ∀ file ∈ t.route path, l.scope? file = none) {cause : BuildError} {m : Library}
    (hle : l ≤ m) (hfails : u.FailsAlone o m cause) :
    Traces o l waiting t (cause.along t.filename path)

section Walks

variable {o : Options} {l m : Library} {waiting : List String} {d : Document}
  {is : List (Included Tree)} {e : BuildError}

theorem Library.scope?_eq_none_of_le {file : String} (hle : l ≤ m) (h : m.scope? file = none) :
    l.scope? file = none := by
  cases hs : l.scope? file with
  | none => rfl
  | some s => cases h.symm.trans (hle file s hs)

/-- The file with the include is one file more on the way. -/
theorem Traces.through {i : Included Tree} (hi : i ∈ is) (hused : i.used = true) (hle : l ≤ m)
    (hfree : l.scope? d.filename = none) (h : Traces o m (waiting ++ [d.filename]) i.content e) :
    Traces o l waiting ⟨d, is⟩ (e.through d.filename i.path) := by
  have hstep : ∀ {path u}, i.content.Path path u → Tree.Path ⟨d, is⟩ (i :: path) u :=
    .step hi hused
  have hrest : ∀ {path}, (∀ file ∈ i.content.route path, m.scope? file = none) →
      ∀ file ∈ Tree.route ⟨d, is⟩ (i :: path), l.scope? file = none := by
    intro path hpath file hfile
    rcases List.mem_cons.mp hfile with rfl | hfile
    · exact hfree
    · exact Library.scope?_eq_none_of_le hle (hpath file hfile)
  cases h with
  | @circle path u hpath hfrees honce hback =>
      have hroute : waiting ++ [d.filename] ++ i.content.route path =
          waiting ++ Tree.route ⟨d, is⟩ (i :: path) :=
        List.append_assoc waiting [d.filename] (i.content.route path)
      rw [hroute] at honce hback ⊢
      exact .circle (hstep hpath) (hrest hfrees) honce hback
  | @fault path u hpath hfrees cause n hn hfails =>
      rw [BuildError.through_eq (BuildError.along_ne_circularInclude hfails.isOwn _ _)]
      exact .fault (hstep hpath) (hrest hfrees) (hle.trans hn) hfails

/-- Building includes fails at one of them, on a library that the ones before have grown. -/
theorem exists_of_buildIncludes_eq_error {k : Linkage}
    (h : ((buildIncludes o d waiting is k).run.run l).1 = .error e) :
    ∃ i ∈ is, i.used = true ∧ ∃ m, l ≤ m ∧ ∃ cause,
      ((buildTree o waiting i.content).run.run m).1 = .error cause ∧
        e = cause.through d.filename i.path := by
  induction is generalizing l k with
  | nil => cases h
  | cons i is ih =>
      obtain ⟨path, used, u⟩ := i
      rw [run_buildIncludes_cons] at h
      cases used with
      | false =>
          obtain ⟨i, hi, hrest⟩ := ih h
          exact ⟨i, List.mem_cons_of_mem _ hi, hrest⟩
      | true =>
          rw [if_pos rfl] at h
          have hkept := (kept_any o u waiting l).1
          cases hu : (buildTree o waiting u).run.run l with
          | mk result m =>
              rw [hu] at h hkept
              cases result with
              | error cause =>
                  refine ⟨_, List.mem_cons_self, rfl, l, le_refl l, cause, ?_, ?_⟩
                  · rw [hu]
                  · exact (Except.error.inj h).symm
              | ok s =>
                  obtain ⟨i, hi, hused, n, hn, hrest⟩ := ih h
                  exact ⟨i, List.mem_cons_of_mem _ hi, hused, n, hkept.le.trans hn, hrest⟩

/-- **A failed build is a walk.** Below any files that wait, and on any library, an error comes
from a circle or from a file that fails by itself. -/
theorem traces_buildTree (t : Tree) (hwaiting : waiting.Nodup)
    (h : ((buildTree o waiting t).run.run l).1 = .error e) : Traces o l waiting t e := by
  induction t using Tree.induct generalizing waiting l e with
  | step d is ih =>
      have hends := ends_buildTree o waiting d is l
      rw [h] at hends
      generalize ((buildTree o waiting ⟨d, is⟩).run.run l).2 = n at hends
      have hroute : Tree.route ⟨d, is⟩ [] = [d.filename] := rfl
      have halone : l.scope? d.filename = none →
          ∀ file ∈ Tree.route ⟨d, is⟩ [], l.scope? file = none := by
        intro hfree file hfile
        rwa [List.mem_singleton.mp hfile]
      cases hends with
      | circular hfree hwaits =>
          rw [← hroute]
          refine .circle (.here _) (halone hfree) ?_ ?_
          · rwa [hroute, List.dropLast_concat]
          · rwa [hroute, List.dropLast_concat]
      | rejected hfree hnew hcheck =>
          exact .fault (.here _) (halone hfree) (le_refl l) ⟨hfree, .inl hcheck⟩
      | blocked hfree hnew _ hincludes =>
          obtain ⟨i, hi, hused, m, hm, cause, hcause, rfl⟩ :=
            exists_of_buildIncludes_eq_error (congrArg Prod.fst hincludes)
          refine .through hi hused ((Library.le_meet l _).trans hm) hfree ?_
          have honce : (waiting ++ [d.filename]).Nodup :=
            hwaiting.append (List.nodup_singleton _) (List.disjoint_singleton.mpr hnew)
          exact ih i hi honce hcause
      | @failed _ k _ hfree hnew _ hincludes hscope =>
          obtain ⟨hkept, hlinks⟩ := links_of_buildIncludes hincludes
          have hle : l ≤ n := (Library.le_meet l _).trans hkept.le
          exact .fault (.here _) (halone hfree) hle ⟨hkept.free hfree, .inr ⟨k, hlinks, hscope⟩⟩

end Walks

/-! ## The stack of files that wait -/

/-- A build on its way: the library, and the stack of the files that wait. -/
structure Progress where
  library : Library
  /-- The root is at the bottom of the stack, which is the head of the list. -/
  waiting : List String

namespace Progress

/-- The file is met, and waits for its includes. -/
def push (p : Progress) (file : String) : Progress :=
  ⟨p.library.meet file, p.waiting ++ [file]⟩

/-- The file on top of the stack waits no more, and its scope is added if it has one. -/
def pop (p : Progress) : Except BuildError Scope → Except BuildError Scope × Progress
  | .error e => (.error e, { p with waiting := p.waiting.dropLast })
  | .ok s => (.ok s, ⟨p.library.add s, p.waiting.dropLast⟩)

end Progress

mutual

/-- Builds a file with the stack in its state. -/
def buildOnStack (o : Options) : Tree → Progress → Except BuildError Scope × Progress
  | ⟨d, is⟩, p =>
    match p.library.scope? d.filename with
    | some s => (.ok s, p)
    | none =>
      if d.filename ∈ p.waiting then (.error (.circularInclude (p.waiting ++ [d.filename])), p)
      else
        match d.check o with
        | .error e => (p.push d.filename).pop (.error e)
        | .ok _ =>
          match includesOnStack o d is (o.unlinked d) (p.push d.filename) with
          | (.error e, q) => q.pop (.error e)
          | (.ok k, q) => q.pop (d.scope o q.library k)
termination_by structural t => t

/-- Builds the includes of a document in order with the stack in the state, and links them. -/
def includesOnStack (o : Options) (d : Document) :
    List (Included Tree) → Linkage → Progress → Except BuildError Linkage × Progress
  | [], k, p => (.ok k, p)
  | i :: is, k, p =>
    match includeOnStack o d i k p with
    | (.error e, q) => (.error e, q)
    | (.ok k, q) => includesOnStack o d is k q
termination_by structural is => is

/-- Builds an include of a document with the stack in the state, and links it. -/
def includeOnStack (o : Options) (d : Document) :
    Included Tree → Linkage → Progress → Except BuildError Linkage × Progress
  | ⟨path, used, t⟩, k, p =>
    if used then
      match buildOnStack o t p with
      | (.error e, q) => (.error (e.through d.filename path), q)
      | (.ok s, q) => (.ok (k.append o.language s.document s.package).2, q)
    else (.ok k.skip, p)
termination_by structural i => i

end

namespace Progress

/-- What a step of a build gives and does to the library, the stack being what it was. -/
def after {α : Type} (p : Progress) (result : Except BuildError α × Library) :
    Except BuildError α × Progress :=
  (result.1, ⟨result.2, p.waiting⟩)

/-- Taking from the stack what was put there leaves the stack as it was. -/
theorem pop_concat (p : Progress) (file : String) (m : Library)
    (built : Except BuildError Scope) :
    pop ⟨m, p.waiting ++ [file]⟩ built =
      p.after (match built with
        | .error e => (.error e, m)
        | .ok s => (.ok s, m.add s)) := by
  cases built with
  | error e => rw [pop, List.dropLast_concat, after]
  | ok s => rw [pop, List.dropLast_concat, after]

end Progress

section Stack

variable {o : Options}

/-- Includes that are built one after the other leave the stack as it was if each of them does. -/
theorem includesOnStack_eq (d : Document) (is : List (Included Tree))
    (hbuild : ∀ i ∈ is, ∀ p, buildOnStack o i.content p =
      p.after ((buildTree o p.waiting i.content).run.run p.library)) (k : Linkage) (p : Progress) :
    includesOnStack o d is k p =
      p.after ((buildIncludes o d p.waiting is k).run.run p.library) := by
  induction is generalizing k p with
  | nil => rfl
  | cons i is ih =>
      obtain ⟨path, used, t⟩ := i
      have hrest := ih fun j hj => hbuild j (List.mem_cons_of_mem _ hj)
      rw [run_buildIncludes_cons, includesOnStack, includeOnStack]
      cases used with
      | false => exact hrest k.skip p
      | true =>
          rw [if_pos rfl, if_pos rfl, hbuild _ List.mem_cons_self p, Progress.after]
          cases (buildTree o p.waiting t).run.run p.library with
          | mk result m =>
              cases result with
              | error e => rfl
              | ok s => exact hrest _ ⟨m, p.waiting⟩

/-- **The build on a stack is the build**, and it leaves the stack as it was, whether it goes well
or not. -/
theorem buildOnStack_eq (t : Tree) (p : Progress) :
    buildOnStack o t p = p.after ((buildTree o p.waiting t).run.run p.library) := by
  induction t using Tree.induct generalizing p with
  | step d is ih =>
      rw [run_buildTree, buildOnStack]
      cases p.library.scope? d.filename with
      | some s => rfl
      | none =>
          dsimp only
          by_cases hwaits : d.filename ∈ p.waiting
          · rw [if_pos hwaits, if_pos hwaits]
            rfl
          · rw [if_neg hwaits, if_neg hwaits]
            cases d.check o with
            | error e => exact p.pop_concat d.filename _ (.error e)
            | ok _ =>
                dsimp only
                rw [includesOnStack_eq d is ih, Progress.push, Progress.after]
                dsimp only
                cases (buildIncludes o d (p.waiting ++ [d.filename]) is (o.unlinked d)).run.run
                    (p.library.meet d.filename) with
                | mk result m =>
                    cases result with
                    | error e => exact p.pop_concat d.filename m (.error e)
                    | ok k =>
                        dsimp only
                        rw [p.pop_concat]
                        cases d.scope o m k <;> rfl

end Stack

/-- The last file of a route is the one that the path leads to. -/
theorem Tree.Path.getLast?_route {t u : Tree} {path : List (Included Tree)} (h : t.Path path u) :
    (t.route path).getLast? = some u.filename := by
  induction h with
  | here t => rfl
  | @step t u i path _ _ _ ih =>
      rw [route, List.map_cons, List.getLast?_cons_cons]
      exact ih

/-- **A failed build tells a circle along a path, or a file at the end of a path that failed by
itself.** A build starts on any library. If it fails, used includes lead from the root, through
files that the library has no scope of, to a last file. Either this is the first one to come back
to a file on the way, and the error is the chain of the files, told by none of them; or it could
not be constructed on the library that it came to, and the error of each file on the way is that
of its include, down to an error which is neither a circle nor that of an include. With the files
that wait on a stack, every build does the same, and the stack is afterwards what it was. -/
theorem build_error_traces_path (o : Options) (l : Library) (t : Tree) :
    (∀ e, (l.build o t).1 = .error e → ∃ path u, t.Path path u ∧
      (∀ file ∈ t.route path, l.scope? file = none) ∧
      (t.route path).getLast? = some u.filename ∧
      ((e = .circularInclude (t.route path) ∧ (t.route path).dropLast.Nodup ∧
          u.filename ∈ (t.route path).dropLast) ∨
        ∃ cause m, e = cause.along t.filename path ∧ e.root = cause ∧ cause.IsOwn ∧
          l ≤ m ∧ u.FailsAlone o m cause)) ∧
    ∀ waiting, buildOnStack o t ⟨l, waiting⟩ =
      (((buildTree o waiting t).run.run l).1,
        ⟨((buildTree o waiting t).run.run l).2, waiting⟩) := by
  constructor
  · intro e he
    have htraces := traces_buildTree t List.nodup_nil he
    cases htraces with
    | @circle path u hpath hfree honce hback =>
        exact ⟨path, u, hpath, hfree, hpath.getLast?_route, .inl ⟨rfl, honce, hback⟩⟩
    | @fault path u hpath hfree cause m hle hfails =>
        have hown := hfails.isOwn
        exact ⟨path, u, hpath, hfree, hpath.getLast?_route,
          .inr ⟨cause, m, rfl, BuildError.root_along hown t.filename path, hown, hle, hfails⟩⟩
  · intro waiting
    exact buildOnStack_eq t ⟨l, waiting⟩

namespace Sample

/-- A file that includes itself through another one. -/
def round : Tree where
  document := .empty "a.thrift"
  includes := [⟨"b.thrift", true, {
    document := .empty "b.thrift"
    includes := [⟨"a.thrift", true, ⟨.empty "a.thrift", []⟩⟩] }⟩]

/-- A file that includes one which asks for a type that is not there. -/
def caller : Tree where
  document := .empty "user.thrift"
  includes := [⟨"broken.thrift", true, broken⟩]

end Sample

set_option maxRecDepth 100000 in
/-- The first file comes back to itself; the second fails with its include, which fails alone. -/
theorem build_error_traces_path_samples :
    (∃ path u, (Library.empty.build {} Sample.round).1 =
        .error (.circularInclude ["a.thrift", "b.thrift", "a.thrift"]) ∧
      Sample.round.Path path u ∧
      Sample.round.route path = ["a.thrift", "b.thrift", "a.thrift"] ∧ u.filename = "a.thrift") ∧
    ∃ path u m, (Library.empty.build {} Sample.caller).1 =
        .error (.failedInclude "user.thrift" "broken.thrift"
          (.resolve (.unresolvedType "broken.thrift" "Lost.gone" "base.Gone"))) ∧
      Sample.caller.Path path u ∧
      (BuildError.along (.resolve (.unresolvedType "broken.thrift" "Lost.gone" "base.Gone"))
          "user.thrift" path).message =
        "user.thrift: failed to build include 'broken.thrift': " ++
          "broken.thrift: cannot resolve type 'base.Gone' of 'Lost.gone'" ∧
      u.FailsAlone {} m (.resolve (.unresolvedType "broken.thrift" "Lost.gone" "base.Gone")) := by
  constructor
  · have hround : (Library.empty.build {} Sample.round).1 =
        .error (.circularInclude ["a.thrift", "b.thrift", "a.thrift"]) := by rfl
    obtain ⟨path, u, hpath, -, hlast, hcase⟩ :=
      (build_error_traces_path {} .empty Sample.round).1 _ hround
    rcases hcase with ⟨hchain, -, -⟩ | ⟨cause, m, -, hroot, hown, -⟩
    · obtain hroute := BuildError.circularInclude.inj hchain
      rw [← hroute] at hlast
      exact ⟨path, u, hround, hpath, hroute.symm, (Option.some.inj hlast).symm⟩
    · rw [← hroot] at hown
      exact hown.elim
  · have hfails : (match (Library.empty.build {} Sample.caller).1 with
        | .error e => decide (e = .failedInclude "user.thrift" "broken.thrift"
            (.resolve (.unresolvedType "broken.thrift" "Lost.gone" "base.Gone")))
        | .ok _ => false) = true := by
      decide +kernel
    cases hbuild : (Library.empty.build {} Sample.caller).1 with
    | ok s =>
        rw [hbuild] at hfails
        cases hfails
    | error e =>
        rw [hbuild] at hfails
        obtain rfl := of_decide_eq_true hfails
        obtain ⟨path, u, hpath, -, -, hcase⟩ :=
          (build_error_traces_path {} .empty Sample.caller).1 _ hbuild
        rcases hcase with ⟨hchain, -⟩ | ⟨cause, m, he, hroot, -, -, hfails⟩
        · cases hchain
        · obtain rfl : _ = cause := hroot
          have hcaller : Sample.caller.filename = "user.thrift" := rfl
          refine ⟨path, u, m, rfl, hpath, ?_, hfails⟩
          rw [← hcaller]
          exact he ▸ rfl

end IdlScope
