import TypedExpr.Description
import TypedExpr.Proofs.Soundness.Declared
/-!
# The outline of a registry

What definitions are called, how many type parameters they have and what they derive from is settled
by few of the steps in which a registry is built: a declaration adds a definition at the end, and a
base is set. All other steps leave it as it is, in whatever order they come.

* `Registry.built`: the registry that any sequence of steps makes.
* `Declaration.outline_build`: what one step may do to names and outline.
* `Registry.wellNamed_built`: **every name stands for a definition that is called so.**
-/

namespace TypedExpr

/-- What members do not change: the name, the number of type parameters and the base. -/
def Definition.outline (d : Definition) : String × Nat × Option Ty := (d.name, d.arity, d.base)

/-- The outlines of all definitions. -/
def Registry.outline (reg : Registry) : Array (String × Nat × Option Ty) :=
  reg.definitions.map Definition.outline

/-- The registry under construction, after some declarations on top of a preset. -/
def Builder.built (preset : Preset) (decls : List Declaration) : Builder :=
  ((do preset.build; decls.forM Declaration.build : Build Unit).run Builder.primitive).2

/-- The registry that is built by some declarations on top of a preset. -/
def Registry.built (preset : Preset) (decls : List Declaration) : Registry :=
  (Builder.built preset decls).registry

/-- On top of all that is built in, this is what an application declares. -/
theorem Registry.built_standard (decls : List Declaration) :
    built .standard decls = declared decls := rfl

theorem Builder.built_concat (preset : Preset) (decls : List Declaration) (decl : Declaration) :
    built preset (decls ++ [decl]) = (decl.build.run (built preset decls)).2 := by
  have hforM (b : Builder) : (((decls ++ [decl]).forM Declaration.build).run b).2 =
      (decl.build.run ((decls.forM Declaration.build).run b).2).2 := by
    induction decls generalizing b with
    | nil => rfl
    | cons d decls ih => exact ih _
  exact hforM _

/-! ### One step -/

namespace Registry

variable {reg reg' : Registry} {d e : DefId}

theorem outline_definition (h : reg'.outline = reg.outline) (d : DefId) :
    (reg'.definition d).outline = (reg.definition d).outline := by
  have hget : (reg'.definitions[d]?).map Definition.outline =
      (reg.definitions[d]?).map Definition.outline := by
    rw [← Array.getElem?_map, ← Array.getElem?_map]
    exact congrArg (·[d]?) h
  unfold definition
  cases hd : reg.definitions[d]? <;> cases hd' : reg'.definitions[d]? <;> simp_all

theorem size_of_outline (h : reg'.outline = reg.outline) :
    reg'.definitions.size = reg.definitions.size := by
  simpa [outline] using congrArg Array.size h

end Registry

namespace Build

variable {α β : Type} {d : DefId} {name : String} {f : HostFunction}

/-- The step leaves the names and the outline as they are. -/
def KeepsOutline (m : Build α) : Prop :=
  ∀ b, (m.run b).2.registry.names = b.registry.names ∧
    (m.run b).2.registry.outline = b.registry.outline

theorem KeepsOutline.bind {m : Build α} {k : α → Build β} (hm : KeepsOutline m)
    (hk : ∀ a, KeepsOutline (k a)) : KeepsOutline (m >>= k) := by
  intro b
  obtain ⟨hnames, houtline⟩ := hk (m.run b).1 (m.run b).2
  exact ⟨hnames.trans (hm b).1, houtline.trans (hm b).2⟩

theorem keepsOutline_noteName : KeepsOutline (noteName name) := fun _ => ⟨rfl, rfl⟩

theorem keepsOutline_memberCallable : KeepsOutline (memberCallable d name f) :=
  fun _ => ⟨rfl, rfl⟩

/-- To change something else about a definition. -/
theorem keepsOutline_changeDefinition {g : Definition → Definition}
    (hg : ∀ t, (g t).outline = t.outline) : KeepsOutline (changeDefinition d g) := by
  intro b
  refine ⟨rfl, ?_⟩
  show (b.registry.definitions.modify d g).map Definition.outline = _
  refine Array.ext (by simp [Registry.outline]) fun i hi hi' => ?_
  simp only [Registry.outline, Array.getElem_map, Array.getElem_modify]
  split
  · exact hg _
  · rfl

section Members

variable {sigs : List TypeSig} {sig sig' sig'' : TypeSig} {n : Nat} {isStatic : Bool}

theorem keepsOutline_constructor : KeepsOutline (constructor d sigs f) :=
  keepsOutline_memberCallable.bind fun _ => keepsOutline_changeDefinition fun _ => rfl

theorem keepsOutline_genericMethod : KeepsOutline (genericMethod d name n isStatic sigs sig f) :=
  keepsOutline_memberCallable.bind fun _ => keepsOutline_noteName.bind fun _ =>
    keepsOutline_changeDefinition fun _ => rfl

theorem keepsOutline_addProperty {p : Property} : KeepsOutline (addProperty d name p) :=
  keepsOutline_noteName.bind fun _ => keepsOutline_changeDefinition fun _ => rfl

theorem keepsOutline_property : KeepsOutline (property d name sig f) :=
  keepsOutline_memberCallable.bind fun _ => keepsOutline_addProperty

theorem keepsOutline_settableProperty {g : HostFunction} :
    KeepsOutline (settableProperty d name sig f g) :=
  keepsOutline_memberCallable.bind fun _ => keepsOutline_memberCallable.bind fun _ =>
    keepsOutline_addProperty

theorem keepsOutline_staticProperty : KeepsOutline (staticProperty d name sig f) :=
  keepsOutline_memberCallable.bind fun _ => keepsOutline_addProperty

theorem keepsOutline_indexer {set : Option HostFunction} :
    KeepsOutline (indexer d sig sig' f set) := by
  refine keepsOutline_memberCallable.bind fun _ => ?_
  cases set with
  | none => exact keepsOutline_changeDefinition fun _ => rfl
  | some set =>
    have hset : KeepsOutline ((some set).mapM (memberCallable d "set_Item")) :=
      fun _ => ⟨rfl, rfl⟩
    exact hset.bind fun _ => keepsOutline_changeDefinition fun _ => rfl

theorem keepsOutline_binaryOperator {op : BinaryOp} :
    KeepsOutline (binaryOperator d op sig sig' sig'' f) :=
  keepsOutline_memberCallable.bind fun _ => keepsOutline_changeDefinition fun _ => rfl

theorem keepsOutline_unaryOperator {op : UnaryOp} :
    KeepsOutline (unaryOperator d op sig sig' f) :=
  keepsOutline_memberCallable.bind fun _ => keepsOutline_changeDefinition fun _ => rfl

theorem keepsOutline_insertion {kind : InsertKind} :
    KeepsOutline (insertion d kind sig name f) :=
  keepsOutline_memberCallable.bind fun _ => keepsOutline_changeDefinition fun _ => rfl

end Members

end Build

/-- What a step does to the names and the outline. A definition is added at the end; or the base of
one is set; or they stay as they are. -/
theorem Declaration.outline_build (decl : Declaration) (b : Builder) :
    (∃ name arity, (decl.build.run b).2.registry.names =
        b.registry.names.insert name b.registry.definitions.size ∧
      (decl.build.run b).2.registry.definitions = b.registry.definitions.push (.bare name arity)) ∨
    (∃ d t, decl = .base d t ∧ (decl.build.run b).2.registry.names = b.registry.names ∧
      (decl.build.run b).2.registry.definitions =
        b.registry.definitions.modify d fun def' => { def' with base := some t }) ∨
    ((decl.build.run b).2.registry.names = b.registry.names ∧
      (decl.build.run b).2.registry.outline = b.registry.outline) := by
  cases decl with
  | type name => exact .inl ⟨name, 0, rfl, rfl⟩
  | generic name arity => exact .inl ⟨name, arity, rfl, rfl⟩
  | base d t => exact .inr (.inl ⟨d, t, rfl, rfl, rfl⟩)
  | function name typeParams params ret f => exact .inr (.inr ⟨rfl, rfl⟩)
  | cast source target f => exact .inr (.inr ⟨rfl, rfl⟩)
  | constructor d params f => exact .inr (.inr (Build.keepsOutline_constructor b))
  | method d name typeParams isStatic params ret f =>
    exact .inr (.inr (Build.keepsOutline_genericMethod b))
  | property d name sig get => exact .inr (.inr (Build.keepsOutline_property b))
  | settableProperty d name sig get set =>
    exact .inr (.inr (Build.keepsOutline_settableProperty b))
  | staticProperty d name sig get => exact .inr (.inr (Build.keepsOutline_staticProperty b))
  | indexer d index elem get set => exact .inr (.inr (Build.keepsOutline_indexer b))
  | binaryOperator d op left right ret f => exact .inr (.inr (Build.keepsOutline_binaryOperator b))
  | unaryOperator d op operand ret f => exact .inr (.inr (Build.keepsOutline_unaryOperator b))
  | insertion d kind sig name f => exact .inr (.inr (Build.keepsOutline_insertion b))

/-! ### Names -/

namespace Registry

/-- Every name stands for a definition that is called so. -/
def WellNamed (reg : Registry) : Prop :=
  ∀ e ∈ reg.names.entries, e.2 < reg.definitions.size ∧ (reg.definition e.2).name = e.1

instance (reg : Registry) : Decidable reg.WellNamed :=
  inferInstanceAs (Decidable (∀ e ∈ reg.names.entries, _))

end Registry

theorem NameMap.mem_of_mem_insertInto {β : Type} {name : String} {value : β}
    {es : List (String × β)} {e : String × β} (h : e ∈ insertInto name value es) :
    e = (name, value) ∨ e ∈ es := by
  induction es with
  | nil => exact .inl (List.mem_singleton.1 h)
  | cons e' es ih =>
    obtain ⟨n, v⟩ := e'
    simp only [insertInto] at h
    split at h
    · rename_i hn
      rcases List.mem_cons.1 h with rfl | h
      · exact .inl (by rw [hn])
      · exact .inr (.tail _ h)
    · rcases List.mem_cons.1 h with rfl | h
      · exact .inr (.head _)
      · exact (ih h).imp_right (.tail _)

theorem NameMap.mem_of_find {β : Type} {name : String} {value : β} {es : List (String × β)}
    (h : find name es = some value) : (name, value) ∈ es := by
  induction es with
  | nil => cases h
  | cons e es ih =>
    obtain ⟨n, v⟩ := e
    simp only [find] at h
    split at h
    · rename_i hn
      cases h
      rw [hn]
      exact .head _
    · exact .tail _ (ih h)

namespace Registry

theorem WellNamed.name_eq {reg : Registry} (h : reg.WellNamed) {name : String} {d : DefId}
    (hd : reg.names.get? name = some d) : (reg.definition d).name = name :=
  (h _ (NameMap.mem_of_find hd)).2

theorem WellNamed.build {b : Builder} (h : b.registry.WellNamed) (decl : Declaration) :
    (decl.build.run b).2.registry.WellNamed := by
  intro e he
  rcases decl.outline_build b with ⟨name, arity, hnames, hdefs⟩ | ⟨d, t, -, hnames, hdefs⟩ |
    ⟨hnames, houtline⟩
  · unfold definition
    rw [hdefs, Array.size_push]
    rw [hnames] at he
    rcases NameMap.mem_of_mem_insertInto he with rfl | he
    · exact ⟨Nat.lt_succ_self _, by simp [Definition.bare]⟩
    · obtain ⟨hlt, hname⟩ := h e he
      refine ⟨Nat.lt_succ_of_lt hlt, ?_⟩
      rw [Array.getElem?_push, if_neg (Nat.ne_of_lt hlt)]
      exact hname
  · obtain ⟨hlt, hname⟩ := h e (hnames ▸ he)
    unfold definition at hname ⊢
    rw [hdefs, Array.size_modify]
    refine ⟨hlt, ?_⟩
    rw [Array.getElem?_eq_getElem hlt] at hname
    rw [Array.getElem?_eq_getElem (by simpa using hlt), Array.getElem_modify]
    split <;> exact hname
  · obtain ⟨hlt, hname⟩ := h e (hnames ▸ he)
    exact ⟨(size_of_outline houtline).symm ▸ hlt,
      (congrArg Prod.fst (outline_definition houtline e.2)).trans hname⟩

/-- What every step keeps holds of whatever is built. -/
theorem built_induct {P : Registry → Prop} (preset : Preset) (h : P (built preset []))
    (hstep : ∀ (b : Builder) (decl : Declaration), P b.registry → P (decl.build.run b).2.registry)
    (decls : List Declaration) : P (built preset decls) := by
  induction decls using List.reverseRecOn with
  | nil => exact h
  | append_singleton decls decl ih =>
    unfold built at ih ⊢
    rw [Builder.built_concat]
    exact hstep _ decl ih

/-- **In whatever is built, every name stands for a definition that is called so.** -/
theorem wellNamed_built (preset : Preset) (decls : List Declaration) :
    (built preset decls).WellNamed :=
  built_induct preset (by cases preset <;> decide +kernel) (fun _ decl h => h.build decl) decls

end Registry

end TypedExpr
