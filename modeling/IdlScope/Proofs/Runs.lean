import IdlScope.Proofs.Builds
import IdlScope.Run

/-!
# Runs — the library of a run after any requests

A run answers requests one after the other. Whatever they are, its library is the one that
building their trees in order leads to (`Run.library_serveAll`), so it is sound for the trees
that were asked for (`Run.sound_serveAll`).
-/

namespace IdlScope

/-- What a run can be asked for. -/
inductive Request where
  | build (t : Tree)
  | buildAll (ts : List Tree)
  | generate (write : Renderer) (ts : List Tree)

/-- The root trees of a request. -/
def Request.trees : Request → List Tree
  | .build t => [t]
  | .buildAll ts => ts
  | .generate _ ts => ts

/-- The library after trees were built on it, whether each went well or not. -/
def Library.after (l : Library) (o : Options) (ts : List Tree) : Library :=
  ts.foldl (fun l t => (l.build o t).2) l

namespace Run

/-- The run after it has answered a request. -/
def serve (r : Run) : Request → Run
  | .build t => (r.build t).2
  | .buildAll ts => (r.buildAll ts).2
  | .generate write ts => (r.generate write ts).2

/-- The run after it has answered requests in order. -/
def serveAll (r : Run) (requests : List Request) : Run :=
  requests.foldl serve r

/-! ## The library of a run -/

theorem buildAll_snd (r : Run) (ts : List Tree) :
    (r.buildAll ts).2 = { r with library := r.library.after r.options ts } := by
  induction ts generalizing r with
  | nil => rfl
  | cons t ts ih => exact ih (r.build t).2

theorem library_renderAll (r : Run) (write : Renderer)
    (results : List (String × Except BuildError Scope)) :
    (r.renderAll write results).2.library = r.library ∧
      (r.renderAll write results).2.options = r.options := by
  induction results generalizing r with
  | nil => exact ⟨rfl, rfl⟩
  | cons result results ih =>
      obtain ⟨file, result⟩ := result
      cases result with
      | error e => exact ih r
      | ok s => exact ih (r.render write s).2

theorem library_serve (r : Run) (q : Request) :
    (r.serve q).library = r.library.after r.options q.trees ∧ (r.serve q).options = r.options := by
  cases q with
  | build t => exact ⟨rfl, rfl⟩
  | buildAll ts =>
      rw [serve, buildAll_snd]
      exact ⟨rfl, rfl⟩
  | generate write ts =>
      obtain ⟨hlibrary, hoptions⟩ := library_renderAll (r.buildAll ts).2 write (r.buildAll ts).1
      have hall := buildAll_snd r ts
      exact ⟨hlibrary.trans (congrArg Run.library hall), hoptions.trans (by rw [hall])⟩

theorem library_serveAll (r : Run) (requests : List Request) :
    (r.serveAll requests).library =
        r.library.after r.options (requests.flatMap Request.trees) ∧
      (r.serveAll requests).options = r.options := by
  induction requests generalizing r with
  | nil => exact ⟨rfl, rfl⟩
  | cons q qs ih =>
      obtain ⟨hlibrary, hoptions⟩ := library_serve r q
      obtain ⟨hlibrary', hoptions'⟩ := ih (r.serve q)
      refine ⟨?_, hoptions'.trans hoptions⟩
      rw [List.flatMap_cons, Library.after, List.foldl_append, ← Library.after, ← Library.after,
        ← hlibrary, ← hoptions]
      exact hlibrary'

end Run

/-! ## What every library of a run is like -/

/-- Is the tree one of the roots or in an include of one, used or not? -/
def Tree.Among (roots : List Tree) (t : Tree) : Prop :=
  ∃ root ∈ roots, t.Within root

theorem Tree.Among.includes {roots : List Tree} {t : Tree} (h : t.Among roots)
    {i : Included Tree} (hi : i ∈ t.includes) : i.content.Among roots := by
  obtain ⟨root, hroot, ht⟩ := h
  exact ⟨root, hroot, .trans (.inside hi (.root _)) ht⟩

theorem Library.Sound.after {o : Options} {roots : List Tree} {l : Library}
    (hl : l.Sound o (Tree.Among roots)) (ts : List Tree) (hts : ∀ t ∈ ts, t ∈ roots) :
    (l.after o ts).Sound o (Tree.Among roots) := by
  induction ts generalizing l with
  | nil => exact hl
  | cons t ts ih =>
      have hkept := (kept_sound (fun _ hu _ hi _ => hu.includes hi) t
        ⟨t, hts t List.mem_cons_self, .root t⟩ [] hl).1
      exact ih hkept.holds fun u hu => hts u (List.mem_cons_of_mem _ hu)

/-- Every library that a run comes to is sound for the trees that were asked for. -/
theorem Run.sound_serveAll (o : Options) (requests : List Request) :
    ((new o).serveAll requests).library.Sound o
      (Tree.Among (requests.flatMap Request.trees)) := by
  rw [(library_serveAll (new o) requests).1]
  exact (Library.Sound.empty o _).after _ fun _ h => h

/-! ## Samples -/

namespace Sample

/-- A color, and an item that every field which refers to it expands to. -/
def base : Tree where
  document := { Document.empty "base.thrift" with
    enums := [⟨"Color", [⟨"RED", 1, []⟩], []⟩]
    structs := [⟨"struct", "Item", [⟨1, "id", .default, .named "i32" .i32, none, []⟩], [],
      some true⟩] }
  includes := []

/-- A holder with a field of the color, red by default, and a field of the item. -/
def user : Tree where
  document := { Document.empty "user.thrift" with
    structs := [⟨"struct", "Holder",
      [⟨1, "color", .default, .named "base.Color" .enum, some (.identifier "base.Color.RED"), []⟩,
        ⟨2, "item", .default, .named "base.Item" .struct, none, []⟩], [], none⟩] }
  includes := [⟨"base.thrift", true, base⟩]

/-- A file that asks for a type which is not there. -/
def broken : Tree where
  document := { Document.empty "broken.thrift" with
    structs := [⟨"struct", "Lost", [⟨1, "gone", .default, .named "base.Gone" .struct, none, []⟩],
      [], none⟩] }
  includes := [⟨"base.thrift", true, base⟩]

/-- The library of a run that has built the holder. -/
def library (o : Options) : Library :=
  ((Run.new o).serveAll [.build user]).library

end Sample

end IdlScope
