import TypedExpr.Token.TypeName
/-!
# Reading type names

Steps over the tokens at hand only pass tokens, cut a `>>` and mention names. So what these three
leave as it is holds after every reading, whether it succeeds or is abandoned.

* `ReadM.Keeps`, `ReadM.Yields`: what holds after a step, and what holds after one that succeeds;
  `ReadM.Returns`: a step that does succeed.
* `Reading.Stable`: what passing and cutting do not change.
* `Reading.Stable.typeAt`, `Reading.Stable.callArgsAt`: it holds after reading a type name, and
  after reading the type arguments of a call.
-/

namespace TypedExpr

namespace ReadM

variable {α β : Type} {r r' : Reading}

theorem bind_of_some {x : ReadM α} {a : α} (h : x r = (some a, r')) (f : α → ReadM β) :
    (x >>= f) r = f a r' := by
  simp only [bind, OptionT.bind, OptionT.mk, StateT.bind, h]

theorem bind_of_none {x : ReadM α} (h : x r = (none, r')) (f : α → ReadM β) :
    (x >>= f) r = (none, r') := by
  simp only [bind, OptionT.bind, OptionT.mk, StateT.bind, h]
  rfl

/-- `P` holds of the tokens that the step leaves, whether it succeeds or not. -/
def Keeps (P : Reading → Prop) (r : Reading) (x : ReadM α) : Prop := P (x r).2

namespace Keeps

variable {P : Reading → Prop}

theorem of_eq {x : ReadM α} {a? : Option α} (h : Keeps P r x) (hx : x r = (a?, r')) : P r' := by
  unfold Keeps at h
  rwa [hx] at h

theorem pure {a : α} (h : P r) : Keeps P r (pure a) := h

theorem failure (h : P r) : Keeps P r (failure : ReadM α) := h

theorem bind {x : ReadM α} {f : α → ReadM β} (hx : Keeps P r x)
    (hf : ∀ a r', P r' → Keeps P r' (f a)) : Keeps P r (x >>= f) := by
  unfold Keeps at hx ⊢
  rcases hr : x r with ⟨_ | a, r'⟩
  · rw [bind_of_none hr]
    rwa [hr] at hx
  · rw [bind_of_some hr]
    rw [hr] at hx
    exact hf a r' hx

theorem get {f : Reading → ReadM β} (h : Keeps P r (f r)) : Keeps P r (get >>= f) := h

theorem modify {g : Reading → Reading} {f : PUnit → ReadM β} (h : Keeps P (g r) (f ⟨⟩)) :
    Keeps P r (modify g >>= f) := h

end Keeps

/-- If the step succeeds, `Q` holds of its result and the tokens that it leaves. -/
def Yields (Q : α → Reading → Prop) (r : Reading) (x : ReadM α) : Prop :=
  ∀ a r', x r = (some a, r') → Q a r'

namespace Yields

variable {Q : α → Reading → Prop} {R : β → Reading → Prop}

theorem pure {a : α} (h : Q a r) : Yields Q r (pure a) := by
  intro b r' hr
  cases hr
  exact h

theorem failure : Yields Q r (failure : ReadM α) := by
  intro a r' hr
  cases hr

theorem bind {x : ReadM α} {f : α → ReadM β} (hx : Yields Q r x)
    (hf : ∀ a r', Q a r' → Yields R r' (f a)) : Yields R r (x >>= f) := by
  intro b r'' hr
  rcases hx' : x r with ⟨_ | a, r'⟩
  · rw [bind_of_none hx'] at hr
    cases hr
  · rw [bind_of_some hx'] at hr
    exact hf a r' (hx a r' hx') b r'' hr

theorem get {f : Reading → ReadM β} (h : Yields R r (f r)) : Yields R r (get >>= f) := h

theorem modify {g : Reading → Reading} {f : PUnit → ReadM β} (h : Yields R (g r) (f ⟨⟩)) :
    Yields R r (modify g >>= f) := h

theorem mono {x : ReadM α} {Q' : α → Reading → Prop} (hx : Yields Q r x)
    (h : ∀ a r', Q a r' → Q' a r') : Yields Q' r x :=
  fun a r' hr => h a r' (hx a r' hr)

/-- What holds after the step in any case holds after one that succeeds. -/
theorem of_keeps {P : Reading → Prop} {x : ReadM α} (hx : Keeps P r x) :
    Yields (fun _ => P) r x := fun _ _ hr => hx.of_eq hr

end Yields

/-- The step succeeds with this result, and `Q` holds of the tokens that it leaves. -/
def Returns (a : α) (Q : Reading → Prop) (r : Reading) (x : ReadM α) : Prop :=
  ∃ r', x r = (some a, r') ∧ Q r'

namespace Returns

variable {a : α} {b : β} {Q R : Reading → Prop}

theorem pure (h : Q r) : Returns a Q r (pure a) := ⟨r, rfl, h⟩

theorem bind {x : ReadM α} {f : α → ReadM β} (hx : Returns a Q r x)
    (hf : ∀ r', Q r' → Returns b R r' (f a)) : Returns b R r (x >>= f) := by
  obtain ⟨r', hr, h⟩ := hx
  obtain ⟨r'', hr', h'⟩ := hf r' h
  exact ⟨r'', (bind_of_some hr f).trans hr', h'⟩

theorem get {f : Reading → ReadM β} (h : Returns b R r (f r)) : Returns b R r (get >>= f) := h

theorem modify {g : Reading → Reading} {f : PUnit → ReadM β} (h : Returns b R (g r) (f ⟨⟩)) :
    Returns b R r (modify g >>= f) := h

end Returns

end ReadM

namespace Reading

/-- What holds of the tokens at hand however many of them are passed and whichever `>>` is cut. -/
structure Stable (P : Reading → Prop) : Prop where
  noted {r : Reading} (h : P r) (c : Catalog) : P { r with catalog := c }
  pass {r : Reading} (h : P r) : P r.pass
  cutNext {r : Reading} (h : P r) (hnext : r.next? = some (.operator (.binary .shr))) :
    P r.cutNext

@[simp] theorem all_pass (r : Reading) : r.pass.all = r.all := by
  unfold pass
  split
  · rename_i t rest hrest
    simp [all, hrest]
  · rfl

theorem pass_noted (r : Reading) (c : Catalog) :
    pass { r with catalog := c } = { r.pass with catalog := c } := by
  obtain ⟨passed, rest, c'⟩ := r
  cases rest <;> rfl

end Reading

/-- What follows the name of a type: type arguments, if it takes any, and `[]` suffixes. -/
def suffixesAt (reg : Registry) (n : Nat) (name : String) : ReadM TypeRef := do
  let isOpened := decide ((← get).next? = some (.operator (.binary .lt)))
  let args ← if (reg.genericArity? name).isSome && isOpened then typeArgsAt reg n else pure []
  let pairs := squarePairs (← get).rest
  modify (Reading.passAll (2 * pairs))
  return TypeRef.arrays pairs (.named name args)

theorem typeAt_succ (reg : Registry) (n : Nat) : typeAt reg (n + 1) = (do
    match (← get).rest with
    | ⟨.ident name _, _, _⟩ :: _ =>
      modify fun r => { r with catalog := r.catalog.noteName name }
      if reg.isTypeName name then
        modify Reading.pass
        suffixesAt reg n name
      else failure
    | _ => failure) := by
  rw [typeAt]
  rfl

namespace Reading

namespace Stable

variable {P : Reading → Prop} {reg : Registry} {n : Nat} {r : Reading}

theorem passAll (hP : Stable P) (h : P r) (n : Nat) : P (Reading.passAll n r) := by
  induction n generalizing r with
  | zero => exact h
  | succ n ih => exact ih (hP.pass h)

theorem suffixesAt_of_args (hP : Stable P) (hargs : ∀ r, P r → ReadM.Keeps P r (typeArgsAt reg n))
    (name : String) (h : P r) : ReadM.Keeps P r (suffixesAt reg n name) := by
  refine .get ?_
  dsimp only
  split
  · exact (hargs _ h).bind fun args r' h' => .get (.modify (.pure (hP.passAll h' _)))
  · exact (ReadM.Keeps.pure h).bind fun args r' h' => .get (.modify (.pure (hP.passAll h' _)))

/-- The two functions go on with each other. -/
theorem typeAt_and_typeArgsAt (hP : Stable P) (reg : Registry) (n : Nat) :
    (∀ r, P r → ReadM.Keeps P r (typeAt reg n)) ∧
      ∀ r, P r → ReadM.Keeps P r (typeArgsAt reg n) := by
  induction n with
  | zero => exact ⟨fun r h => h, fun r h => h⟩
  | succ n ih =>
    obtain ⟨ihType, ihArgs⟩ := ih
    constructor
    · intro r h
      rw [typeAt_succ]
      refine .get ?_
      split
      · refine .modify ?_
        have hnoted := hP.noted h (r.catalog.noteName ‹_›)
        split
        · exact .modify (hP.suffixesAt_of_args ihArgs _ (hP.pass hnoted))
        · exact .failure hnoted
      · exact .failure h
    · intro r h
      rw [typeArgsAt]
      refine .modify ((ihType _ (hP.pass h)).bind fun arg r' h' => .get ?_)
      split
      · exact (ihArgs _ h').bind fun args r'' h'' => .pure h''
      · exact .modify (.pure (hP.pass h'))
      · exact .modify (.pure (hP.cutNext h' ‹_›))
      · exact .failure h'

theorem typeAt (hP : Stable P) (reg : Registry) (n : Nat) (h : P r) :
    ReadM.Keeps P r (typeAt reg n) := (hP.typeAt_and_typeArgsAt reg n).1 r h

theorem typeArgsAt (hP : Stable P) (reg : Registry) (n : Nat) (h : P r) :
    ReadM.Keeps P r (typeArgsAt reg n) := (hP.typeAt_and_typeArgsAt reg n).2 r h

/-- What is read begins with a name, which is passed. -/
theorem typeAt_of_pass (hP : Stable P) (reg : Registry) (n : Nat) (h : P r.pass) :
    ReadM.Yields (fun _ => P) r (TypedExpr.typeAt reg n) := by
  cases n with
  | zero => exact .failure
  | succ n =>
    rw [typeAt_succ]
    refine .get ?_
    split
    · refine .modify ?_
      split
      · refine .modify (.of_keeps (hP.suffixesAt_of_args (fun _ => hP.typeArgsAt reg n) _ ?_))
        rw [pass_noted]
        exact hP.noted h _
      · exact .failure
    · exact .failure

theorem callArgsAt (hP : Stable P) (reg : Registry) (n : Nat) (h : P r) :
    ReadM.Keeps P r (callArgsAt reg n) := by
  refine (hP.typeArgsAt reg n h).bind fun args r' h' => .get ?_
  split
  · exact .pure h'
  · exact .failure h'

end Stable

end Reading

end TypedExpr
