import TypedExpr.Proofs.Evaluation.Moves
import TypedExpr.Proofs.Evaluation.WellTyped
import TypedExpr.Proofs.Soundness.Calls
/-!
# Evaluation keeps the heap typed

If all callables work, types govern evaluation: it keeps the heap and the variables as they are
typed, and fails only for a reason that values alone can show.

* `Context.Binds`: the variables in scope are bound to values of their types.
* `Registry.soundness`: what an evaluation does to the heap and to the variables in scope.
* `Registry.SafeIn.governs`: **types govern it.**
-/

namespace TypedExpr

variable {reg : Registry} {scope : Scope} {l l' : Layout}

/-! ### Variables -/

/-- The variables in scope are bound at their types to values of these types. -/
def Context.Binds (reg : Registry) (l : Layout) (scope : Scope) (context : Context) : Prop :=
  ∀ name t, scope.get? name = some (.var t) →
    ∃ v, context.binding? name = some ⟨t, v⟩ ∧ l.Knows v ∧ reg.conforms v t = true

namespace Context.Binds

variable {context : Context} {name : String} {t : Ty} {v : Value}

theorem mono (h : context.Binds reg l scope) (hl : l ≤ l') : context.Binds reg l' scope := by
  intro name t ht
  obtain ⟨v, hb, hv, hc⟩ := h name t ht
  exact ⟨v, hb, hv.mono hl, hc⟩

theorem yields_read (hc : context.Binds reg l scope) (h : scope.get? name = some (.var t))
    (c : Catalog) : Yields Fault.Expected (reg.Has l t) (context.read c name t) := by
  obtain ⟨v, hb, hv, hconf⟩ := hc name t h
  rw [Context.read_ok.2 hb]
  exact .ok ⟨hv, fun _ => hconf⟩

theorem yields_write (hc : context.Binds reg l scope) (h : scope.get? name = some (.var t))
    (ht : t ≠ .void) (hv : reg.Has l t v) (c : Catalog) :
    Yields Fault.Expected (fun context' => context'.Binds reg l scope)
      (context.write c name t v) := by
  obtain ⟨old, hb, -⟩ := hc name t h
  have hd : context.declared? name = some t := by rw [Context.declared?, hb]; rfl
  obtain ⟨context', hwrite⟩ := Context.exists_write hd c v
  obtain ⟨-, hbind⟩ := Context.write_ok hwrite
  rw [hwrite]
  refine .ok fun x u hx => ?_
  rw [hbind x]
  split
  · rename_i heq
    subst heq
    cases h.symm.trans hx
    exact ⟨v, rfl, hv.knows, hv.fits ht⟩
  · exact hc x u hx

end Context.Binds

namespace Registry

/-- What an evaluation does to the heap and to the variables in scope, and the values of a type. -/
def soundness (reg : Registry) (scope : Scope) : Regime Layout where
  world := reg.world
  binds l context := context.Binds reg l scope
  has := reg.Has
  uses _ := True

/-- **Types govern what an evaluation does to the heap and to the variables**, if all callables
work. -/
theorem SafeIn.governs (hr : reg.Rooted) (hs : reg.SafeIn reg) (scope : Scope) :
    (reg.soundness scope).Governs reg scope where
  expected h := h
  mono h hl := h.mono hl
  plain l _ _ h := h.has l
  default := .default
  assignable h ha hd := h.assignable hr ha hd
  checked h hc := ⟨h.knows.promote _, fun _ => hc⟩
  reads h := h.reads hr
  step h hv := (yields_stepValue h (hv.plain_of_step hr h)).mono fun _ h => h.has _
  binds_mono h hl := h.mono hl
  read h hc c := hc.yields_read h c
  write h hc hv c := hc.yields_write h hv.1 hv.2 c
  newArray h := Run.keeps_newArray h
  text h := keeps_toText hr hs h.knows
  call h ha :=
    (keeps_call (hs.resolves hr h.resolves) (ha.imp fun _ _ h => h.2)).mono fun _ _ _ _ => trivial
  callFor h ha := keeps_callFor hr (hs.resolves hr h.resolves) (ha.imp fun _ _ h => h.2)
  callUnary h _ hv := keeps_call (hs.operator (selectOperator_ok h) rfl _) (.cons hv.2 .nil)
  callBinary h _ hv hv' := by
    obtain ⟨owner, -, hselect⟩ := resolveBinaryOperator_ok h
    exact keeps_call (hs.operator hselect (.inl rfl) _) (.cons hv.2 (.cons hv'.2 .nil))
  callCompound {l op target source p q ret id v u} h _ ha _ hv hv' := by
    obtain ⟨owner, -, hselect⟩ := resolveBinaryOperator_ok h
    have hworks := hs.operator hselect (.inr ha) [.void, .void]
    -- An overload works with operands of any type, so the target need not be converted.
    have hargs : List.Forall₂ (reg.Has l) [.void, .void] [v, u] :=
      .cons ⟨hv.2.knows, fun h => absurd rfl h⟩ (.cons ⟨hv'.2.knows, fun h => absurd rfl h⟩ .nil)
    refine (keeps_call hworks hargs).mono fun l' r _ hr' => ?_
    show reg.Has l' target (r.promote target)
    rwa [hr'.promote_eq hr]
  callCast h _ hv := keeps_call (hs.cast? h) (.cons hv.2 .nil)

end Registry

end TypedExpr
