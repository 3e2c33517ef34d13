import IdlScope.Idl.Tree

/-!
# Nesting — induction over trees, types and values

A tree holds trees inside its includes, a type holds its element types behind an option, and a
constant value holds values in lists and in the entries of maps. Each of the three comes with the
principle that lets a proof forget in what the parts are wrapped.
-/

namespace IdlScope

/-- What a tree inherits from its includes, every tree has. -/
@[elab_as_elim]
theorem Tree.induct {P : Tree → Prop}
    (step : ∀ d is, (∀ i ∈ is, P i.content) → P ⟨d, is⟩) (t : Tree) : P t :=
  @Tree.rec P (fun is => ∀ i ∈ is, P i.content) (fun i => P i.content)
    (fun d is ih => step d is ih)
    (fun _ h => absurd h List.not_mem_nil)
    (fun _ _ hi his j hj => by
      rcases List.mem_cons.mp hj with rfl | hj
      · exact hi
      · exact his j hj)
    (fun _ _ _ h => h) t

/-- What a type inherits from its element types, every type has. -/
@[elab_as_elim]
theorem IdlType.induct {P : IdlType → Prop}
    (step : ∀ name category key value reference annotations, (∀ t ∈ key, P t) →
      (∀ t ∈ value, P t) → P ⟨name, category, key, value, reference, annotations⟩)
    (t : IdlType) : P t :=
  @IdlType.rec P (fun o => ∀ t ∈ o, P t)
    (fun name category key value reference annotations hkey hvalue =>
      step name category key value reference annotations hkey hvalue)
    (fun _ h => nomatch h)
    (fun _ ht _ h => Option.some.inj h ▸ ht) t

/-- What holds of the values without parts, and of a list and of a map if it holds of all that is
in them, holds of every value. -/
@[elab_as_elim]
theorem ConstValue.induct {P : ConstValue → Prop} (int : ∀ i, P (.int i))
    (double : ∀ x, P (.double x)) (literal : ∀ s, P (.literal s))
    (identifier : ∀ s, P (.identifier s)) (list : ∀ items, (∀ v ∈ items, P v) → P (.list items))
    (map : ∀ entries, (∀ e ∈ entries, P e.1 ∧ P e.2) → P (.map entries)) (v : ConstValue) : P v :=
  @ConstValue.rec P (fun items => ∀ v ∈ items, P v) (fun entries => ∀ e ∈ entries, P e.1 ∧ P e.2)
    (fun e => P e.1 ∧ P e.2) int double literal identifier list map
    (fun _ h => absurd h List.not_mem_nil)
    (fun _ _ hv hvs w hw => by
      rcases List.mem_cons.mp hw with rfl | hw
      · exact hv
      · exact hvs w hw)
    (fun _ h => absurd h List.not_mem_nil)
    (fun _ _ he hes f hf => by
      rcases List.mem_cons.mp hf with rfl | hf
      · exact he
      · exact hes f hf)
    (fun _ _ hk hv => ⟨hk, hv⟩) v

end IdlScope
