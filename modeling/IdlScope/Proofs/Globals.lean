import IdlScope.Proofs.Accounts
import IdlScope.Proofs.Stages

/-!
# Globals — the names of a file's declarations never collide

Some names of a file grow underscores until they are free, others have to be exactly what they
are, and those that are made from a name go by what it has grown to. None of this matters: a file
that gets a scope has given all of them from one table, each under its own key.

* **`Site.Holds.nodup_identifiers`** — what is made from the names of different sources differs.
* **`Scope.HoldsNames`** — a finished file has its declarations under the names that its table of
  globals holds for them.
* **`globals_distinct`** — no two names of declarations, and of what is made from them, are one;
  nor is any of them that of a structure made up for a function.
-/

namespace IdlScope

/-! ## Names by source -/

namespace Site.Holds

variable {t : NameTable} (ht : t.Distinct)
include ht

/-- A source with a name of its own has all that is made from this name. -/
theorem entries_subset {e : String × List GlobalRole} (h : Holds t.entries e)
    (hown : .own ∈ e.2) : ∃ name, t.nameOf? e.1 = some name ∧
      GlobalRole.entries e.2 e.1 name ⊆ t.entries := by
  obtain ⟨-, name, hentries⟩ := h
  refine ⟨name, ht.nameOf?_eq_some_iff.mpr (hentries ?_), hentries⟩
  exact List.mem_map_of_mem (f := (GlobalRole.entry · e.1 name)) hown

/-- What is made from the names of different sources differs. -/
theorem nodup_identifiers {as : List (String × List GlobalRole)}
    (hsources : (as.map Prod.fst).Nodup) (hroles : ∀ e ∈ as, e.2.Nodup ∧ .own ∈ e.2)
    (hholds : ∀ e ∈ as, Holds t.entries e) :
    (as.flatMap fun e => e.2.map (·.identifier ((t.nameOf? e.1).getD ""))).Nodup := by
  have hentries : (as.flatMap fun e => GlobalRole.entries e.2 e.1 ((t.nameOf? e.1).getD "")) ⊆
      t.entries := by
    intro entry hentry
    obtain ⟨e, he, hentry⟩ := List.mem_flatMap.mp hentry
    obtain ⟨name, hname, hsub⟩ := (hholds e he).entries_subset ht (hroles e he).2
    rw [hname] at hentry
    exact hsub hentry
  have hkeys := Naming.nodup_tagged Prod.fst (fun e => e.2.map GlobalRole.keyWord) hsources
    (fun e he => (hroles e he).1.map GlobalRole.keyWord_injective)
    (fun e he => Naming.colon_not_mem (hholds e he).1) (fun e he w hw => by
      obtain ⟨role, -, rfl⟩ := List.mem_map.mp hw
      exact role.colon_not_mem_keyWord)
  have hnames := ht.nodup_names hentries (by
    rw [List.map_flatMap]
    simpa only [GlobalRole.entries, GlobalRole.entry, List.map_map, Function.comp_def] using hkeys)
  rw [List.map_flatMap] at hnames
  simpa only [GlobalRole.entries, GlobalRole.entry, List.map_map, Function.comp_def] using hnames

end Site.Holds

theorem Document.nodup_of_mem_roles {d : Document} {e : String × List GlobalRole}
    (h : e ∈ d.roles) : e.2.Nodup ∧ .own ∈ e.2 := by
  simp only [roles, List.mem_append, List.mem_map] at h
  rcases h with (((⟨_, _, rfl⟩ | ⟨_, _, rfl⟩) | ⟨_, _, rfl⟩) | ⟨t, _, rfl⟩) | ⟨_, _, rfl⟩
  · exact (by decide : GlobalRole.ofService.Nodup ∧ .own ∈ GlobalRole.ofService)
  · exact (by decide : GlobalRole.ofStructure.Nodup ∧ .own ∈ GlobalRole.ofStructure)
  · exact ⟨List.nodup_singleton _, List.mem_singleton_self _⟩
  · dsimp only
    rw [GlobalRole.ofTypedef]
    split <;> decide
  · exact ⟨List.nodup_singleton _, List.mem_singleton_self _⟩

/-- What is made up for a function has the mark in its source name. -/
theorem Document.mark_mem_of_mem_madeUp {d : Document} {st : StructDecl} (h : st ∈ d.madeUp) :
    Naming.mark ∈ st.name.toList := by
  have hmark : ∀ key, Naming.mark ∈ (Naming.synthetic key).toList := by
    intro key
    rw [Naming.synthetic, String.toList_ofList]
    exact List.mem_cons_self
  obtain ⟨service, -, hst⟩ := List.mem_flatMap.mp h
  obtain ⟨f, -, hst⟩ := List.mem_flatMap.mp hst
  rcases List.mem_cons.mp hst with rfl | hst
  · exact hmark _
  · split at hst
    · exact absurd hst List.not_mem_nil
    · rw [List.mem_singleton.mp hst]
      exact hmark _

/-! ## Names of a finished file -/

namespace Scope

/-- The name that the file has for a source name. -/
def nameOf (s : Scope) (source : String) : String :=
  (s.globals.nameOf? source).getD ""

/-- The source names of the declarations of the file, then those of the structures that are made
up for its functions, each once, with what is made from their names. -/
def roles (s : Scope) : List (String × List GlobalRole) :=
  s.document.roles ++ (s.structures.madeUp.map Structure.source).dedup.map
    fun source => (source, GlobalRole.ofStructure)

/-- The names of the declarations and of the made-up structures, and all that is made from them. -/
def identifiers (s : Scope) : List String :=
  s.roles.flatMap fun e => e.2.map (·.identifier (s.nameOf e.1))

theorem nodup_of_mem_roles {s : Scope} {e : String × List GlobalRole} (h : e ∈ s.roles) :
    e.2.Nodup ∧ .own ∈ e.2 := by
  rcases List.mem_append.mp h with h | h
  · exact Document.nodup_of_mem_roles h
  · obtain ⟨source, -, rfl⟩ := List.mem_map.mp h
    exact (by decide : GlobalRole.ofStructure.Nodup ∧ .own ∈ GlobalRole.ofStructure)

/-- What the file lists or enters has the name that the table of globals holds for its source. -/
structure HoldsNames (s : Scope) : Prop where
  structures : ∀ st ∈ s.structures.all, s.globals.nameOf? st.source = some st.name
  services : ∀ v ∈ s.services, s.globals.nameOf? v.decl.name = some v.name
  enums : ∀ e ∈ s.enums, s.globals.nameOf? e.decl.name = some e.name
  typedefs : ∀ t ∈ s.typedefs, s.globals.nameOf? t.decl.name = some t.name
  constants : ∀ c ∈ s.constants, s.globals.nameOf? c.decl.name = some c.name
  declared : ∀ source d, s.declared.get? source = some d → s.globals.nameOf? source = some d.name

namespace Built

variable {s : Scope} {o : Options} {t : Tree} {l : Library} {k : Linkage} (h : s.Built o t l k)
include h

theorem holdsNames : s.HoldsNames := by
  obtain ⟨r, resolved, hcomes, hglobals, htypedefs, hconstants, hservices⟩ := h.rostered
  have haccounts := Site.accounts_roster hcomes.named
  have hname : ∀ {source name}, (source, name) ∈ r.globals.entries →
      s.globals.nameOf? source = some name := fun hmem => by
    rw [hglobals]
    exact haccounts.distinct.nameOf?_eq_some_iff.mpr hmem
  constructor
  · intro st hst
    have hmem := hcomes.mem_structures hst
    exact hname ((haccounts.structures _ hmem).2.2 List.mem_cons_self)
  · exact fun v hv => hname ((haccounts.services _ (hservices v hv)).1 List.mem_cons_self)
  · exact fun e he => hname (haccounts.enums e (hcomes.enums ▸ he))
  · exact fun d hd => hname (haccounts.typedefs _ (htypedefs d hd) List.mem_cons_self)
  · exact fun c hc => hname (haccounts.constants _ (hconstants c hc))
  · exact fun source d hd => hname (haccounts.declared source d (hcomes.declared ▸ hd))

/-- What a finished file names is held by its table of globals, and its made-up structures are
those of its document, in order. -/
theorem holds_roles : s.globals.Distinct ∧ (∀ e ∈ s.roles, Site.Holds s.globals.entries e) ∧
    s.structures.madeUp.map Structure.decl = s.document.madeUp := by
  obtain ⟨r, resolved, hcomes, hglobals, -⟩ := h.rostered
  have haccounts := Site.accounts_roster hcomes.named
  have hmadeUp : r.structures.madeUp = s.structures.madeUp.map (Structure.map Field.toNamedField) :=
    congrArg StructureLists.madeUp hcomes.map_structures.symm
  rw [hglobals, hcomes.document]
  refine ⟨haccounts.distinct, fun e he => ?_, ?_⟩
  · rcases List.mem_append.mp he with he | he
    · exact haccounts.holds e (hcomes.document ▸ he)
    · obtain ⟨source, hsource, rfl⟩ := List.mem_map.mp he
      obtain ⟨st, hst, rfl⟩ := List.mem_map.mp (List.mem_dedup.mp hsource)
      have hmem : st.map Field.toNamedField ∈ r.structures.all := by
        refine List.mem_append_right _ ?_
        rw [hmadeUp]
        exact List.mem_map_of_mem hst
      obtain ⟨-, hexported, hentries⟩ := haccounts.structures _ hmem
      exact ⟨hexported, st.name, hentries⟩
  · have hdecls := haccounts.madeUp
    rwa [hmadeUp, List.map_map] at hdecls

/-- Without marks in the names of declarations, the mark tells what is made up from what is
declared, so the source names of both are different names. -/
theorem nodup_sources (hsources : (s.document.roles.map Prod.fst).Nodup)
    (hmark : ∀ e ∈ s.document.roles, Naming.mark ∉ e.1.toList) :
    (s.roles.map Prod.fst).Nodup := by
  rw [Scope.roles, List.map_append, List.map_map, List.nodup_append]
  refine ⟨hsources, ?_, ?_⟩
  · rw [show Prod.fst ∘ (fun source : String => (source, GlobalRole.ofStructure)) = id from rfl,
      List.map_id]
    exact List.nodup_dedup _
  · rintro source hdeclared _ hmade rfl
    obtain ⟨e, he, rfl⟩ := List.mem_map.mp hdeclared
    obtain ⟨source, hsource, heq⟩ := List.mem_map.mp hmade
    obtain ⟨st, hst, rfl⟩ := List.mem_map.mp (List.mem_dedup.mp hsource)
    refine hmark e he ?_
    rw [← show st.source = e.1 from heq]
    exact Document.mark_mem_of_mem_madeUp (d := s.document)
      (h.holds_roles.2.2 ▸ List.mem_map_of_mem hst)

end Built

end Scope

/-- **Names of declarations never collide.** In every file that a run comes to, if the source
names of its declarations differ and have no mark in them: the names of all declarations, with
the constructors, tables of field numbers, clients and processors that are made from them, are
different names, structures of unknown kinds included, and none of them is the name of a structure
that is made up for a function, or made from one. And whatever the file lists or enters has the
name that its table of globals holds for the source name. -/
theorem globals_distinct (o : Options) (requests : List Request) {file : String} {s : Scope}
    (hs : ((Run.new o).serveAll requests).library.scope? file = some s)
    (hsources : (s.document.roles.map Prod.fst).Nodup)
    (hmark : ∀ e ∈ s.document.roles, Naming.mark ∉ e.1.toList) :
    s.identifiers.Nodup ∧ (∀ e ∈ s.roles, s.globals.nameOf? e.1 = some (s.nameOf e.1)) ∧
      s.HoldsNames := by
  obtain ⟨t, m, k, -, -, hbuilt⟩ := (Run.sound_serveAll o requests).built file s hs
  obtain ⟨hdistinct, hholds, -⟩ := hbuilt.holds_roles
  refine ⟨?_, fun e he => ?_, hbuilt.holdsNames⟩
  · exact Site.Holds.nodup_identifiers hdistinct (hbuilt.nodup_sources hsources hmark)
      (fun e he => Scope.nodup_of_mem_roles he) hholds
  · obtain ⟨name, hname, -⟩ :=
      (hholds e he).entries_subset hdistinct (Scope.nodup_of_mem_roles he).2
    rw [Scope.nameOf, hname]
    rfl

namespace Sample

/-- A market with a service, two structures whose source names lead to one name, a structure of an
unknown kind, an enum, a typedef of a structure and a constant. -/
def market : Tree where
  document := { Document.empty "market.thrift" with
    services := [⟨"Shop", none, none, [⟨"buy", false, false, .named "i32" .i32,
      [⟨1, "item", .default, .named "Item" .struct, none, []⟩], [], []⟩], []⟩]
    structs := [⟨"struct", "Item", [], [], none⟩, ⟨"struct", "item", [], [], none⟩,
      ⟨"table", "Stock", [], [], none⟩]
    enums := [⟨"Color", [⟨"RED", 1, []⟩], []⟩]
    typedefs := [⟨"Ware", .named "Item" .struct, []⟩]
    constants := [⟨"MAX", .named "i32" .i32, .int 3⟩] }
  includes := []

end Sample

set_option maxRecDepth 100000 in
/-- The names of the market, those of its made-up structures last. -/
theorem globals_distinct_market :
    ∃ s, ((Run.new {}).serveAll [.build Sample.market]).library.scope? "market.thrift" = some s ∧
      s.identifiers = ["Shop", "ShopClient", "ShopProcessor",
        "Item", "NewItem", "fieldIDToName_Item", "Item_", "NewItem_", "fieldIDToName_Item_",
        "Stock", "NewStock", "fieldIDToName_Stock", "Color", "Ware", "NewWare", "MAX",
        "ShopBuyArgs", "NewShopBuyArgs", "fieldIDToName_ShopBuyArgs",
        "ShopBuyResult", "NewShopBuyResult", "fieldIDToName_ShopBuyResult"] ∧
      s.identifiers.Nodup ∧ s.HoldsNames := by
  have hfound : (((Run.new {}).serveAll [.build Sample.market]).library.scope? "market.thrift").any
      (fun s => s.identifiers == ["Shop", "ShopClient", "ShopProcessor",
          "Item", "NewItem", "fieldIDToName_Item", "Item_", "NewItem_", "fieldIDToName_Item_",
          "Stock", "NewStock", "fieldIDToName_Stock", "Color", "Ware", "NewWare", "MAX",
          "ShopBuyArgs", "NewShopBuyArgs", "fieldIDToName_ShopBuyArgs",
          "ShopBuyResult", "NewShopBuyResult", "fieldIDToName_ShopBuyResult"] &&
        decide (s.document.roles.map Prod.fst).Nodup &&
        s.document.roles.all fun e => decide (Naming.mark ∉ e.1.toList)) = true := by
    decide +kernel
  obtain ⟨s, hs, hfound⟩ := (Option.any_eq_true _ _).mp hfound
  simp only [Bool.and_eq_true, beq_iff_eq, decide_eq_true_eq, List.all_eq_true] at hfound
  obtain ⟨⟨hidentifiers, hsources⟩, hmark⟩ := hfound
  obtain ⟨hnodup, -, hnames⟩ := globals_distinct {} [.build Sample.market] hs hsources hmark
  exact ⟨s, hs, hidentifiers, hnodup, hnames⟩

end IdlScope
