import IdlScope.Scope.Build

/-!
# Field jobs — the fields of a file one by one

The fields of a file can be resolved in any order and side by side, because resolving one only
reads. Each of them is a job of its own, told by where the field stands. If no job fails, the
file goes on to be rendered; if some do, the file has failed, and any of their errors may be
the one that is reported.
-/

namespace IdlScope

/-- The lists that the structures of a file come in. -/
inductive StructureRow where
  | structs
  | unions
  | exceptions
  | madeUp
  deriving DecidableEq

/-- All lists, in the order in which their fields are resolved. -/
def StructureRow.all : List StructureRow :=
  [.structs, .unions, .exceptions, .madeUp]

/-- Where a field stands: in a slot of a structure or, if the slot is expanded, among the fields
that it expands to. -/
structure FieldJob where
  row : StructureRow
  structureAt : Nat
  slotAt : Nat
  childAt : Option Nat
  deriving DecidableEq

namespace StructureLists

variable {α : Type}

/-- The structures of a list. -/
def row (l : StructureLists α) : StructureRow → List (Structure α)
  | .structs => l.structs
  | .unions => l.unions
  | .exceptions => l.exceptions
  | .madeUp => l.madeUp

/-- The jobs of the fields, each declared field before the fields that it expands to. -/
def jobs (l : StructureLists α) : List FieldJob :=
  StructureRow.all.flatMap fun row =>
    (l.row row).zipIdx.flatMap fun s =>
      s.1.slots.zipIdx.flatMap fun slot =>
        ⟨row, s.2, slot.2, none⟩ ::
          (List.range slot.1.children.length).map fun child => ⟨row, s.2, slot.2, some child⟩

/-- The field of a job, with the source name of its structure. -/
def fieldAt? (l : StructureLists α) (job : FieldJob) : Option (String × α) := do
  let s ← (l.row job.row)[job.structureAt]?
  let slot ← s.slots[job.slotAt]?
  match job.childAt with
  | none => return (s.source, slot.field)
  | some child => (slot.children[child]?).map (s.source, ·)

end StructureLists

/-- The errors of the fields that cannot be resolved, in the order of their jobs. -/
def Roster.fieldErrors (r : Roster) (library : Library) (own : Place) : List ResolveError :=
  r.structures.jobs.filterMap fun job => do
    let (owner, f) ← r.structures.fieldAt? job
    match library.resolveField own owner f with
    | .ok _ => none
    | .error e => some e

/-- What finishing comes to: the scope, or the errors of which one is reported. -/
def Roster.outcome (r : Roster) (language : Language) (library : Library) (d : Document)
    (linkage : Linkage) : Except (List ResolveError) Scope :=
  match r.fieldErrors library ⟨.here, r.directory d linkage.includes⟩ with
  | [] => (r.scope language library d linkage).mapError ([·])
  | errors => .error errors

/-- What a document whose includes are linked comes to: its scope, or the errors of which one is
reported. -/
def Document.outcome (d : Document) (o : Options) (library : Library) (linkage : Linkage) :
    Except (List BuildError) Scope := do
  let place : Place := ⟨.here, ⟨d, linkage.includes, .empty, []⟩⟩
  let roster ← (Site.roster ⟨o, library, place⟩).mapError ([·])
  (roster.outcome o.language library d linkage).mapError (·.map .resolve)

end IdlScope
