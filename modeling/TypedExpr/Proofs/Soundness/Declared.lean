import TypedExpr.Proofs.Soundness.Standard
/-!
# What an application declares

An application declares types with members, functions and casts, on top of all that is built in. Its
callables may be called with any arguments; what is asked of them is what they give back and what
they leave in the heap.

* `Declaration`: one step of an application, on whatever definition it likes.
* `Declaration.Sound`: what is asked of the callables in it.
* `Registry.declared`: the standard registry with what an application declares.
* `Registry.safeIn_declared`: **in a registry of sound declarations all callables work.**
-/

namespace TypedExpr

/-- What an application declares. -/
inductive Declaration where
  | type (name : String)
  | generic (name : String) (arity : Nat)
  | base (d : DefId) (t : Ty)
  | constructor (d : DefId) (params : List TypeSig) (function : HostFunction)
  | method (d : DefId) (name : String) (typeParams : Nat) (isStatic : Bool) (params : List TypeSig)
    (ret : TypeSig) (function : HostFunction)
  | property (d : DefId) (name : String) (type : TypeSig) (get : HostFunction)
  | settableProperty (d : DefId) (name : String) (type : TypeSig) (get set : HostFunction)
  | staticProperty (d : DefId) (name : String) (type : TypeSig) (get : HostFunction)
  | indexer (d : DefId) (index elem : TypeSig) (get : HostFunction) (set : Option HostFunction)
  | binaryOperator (d : DefId) (op : BinaryOp) (left right ret : TypeSig) (function : HostFunction)
  | unaryOperator (d : DefId) (op : UnaryOp) (operand ret : TypeSig) (function : HostFunction)
  | insertion (d : DefId) (kind : InsertKind) (elem : TypeSig) (name : String)
    (function : HostFunction)
  | function (name : String) (typeParams : Nat) (params : List TypeSig) (ret : TypeSig)
    (function : HostFunction)
  | cast (source target : Ty) (function : HostFunction)

namespace Declaration

/-- The step of construction. -/
def build : Declaration → Build Unit
  | type name => do let _ ← Build.declareType name
  | generic name arity => do let _ ← Build.declareGeneric name arity
  | base d t => Build.base d t
  | constructor d params f => Build.constructor d params f
  | method d name typeParams isStatic params ret f =>
    Build.genericMethod d name typeParams isStatic params ret f
  | property d name sig get => Build.property d name sig get
  | settableProperty d name sig get set => Build.settableProperty d name sig get set
  | staticProperty d name sig get => Build.staticProperty d name sig get
  | indexer d index elem get set => Build.indexer d index elem get set
  | binaryOperator d op left right ret f => Build.binaryOperator d op left right ret f
  | unaryOperator d op operand ret f => Build.unaryOperator d op operand ret f
  | insertion d kind elem name f => Build.insertion d kind elem name f
  | function name typeParams params ret f => Build.function name typeParams params ret f
  | cast source target f => Build.cast source target f

/-- The callables are sound at every type that may be expected of them. -/
def Sound (reg : Registry) : Declaration → Prop
  | type _ | generic _ _ | base _ _ => True
  | constructor d _ f => ∀ t args, Registry.defOf? t = some (d, args) → f.Sound reg t
  | method _ _ _ _ _ ret f | function _ _ _ ret f => ∀ args, f.Sound reg (ret.instantiate args)
  | property _ _ sig get | staticProperty _ _ sig get =>
    ∀ args, get.Sound reg (sig.instantiate args)
  | settableProperty _ _ sig get set =>
    (∀ args, get.Sound reg (sig.instantiate args)) ∧ set.Sound reg .void
  | indexer _ _ elem get set =>
    (∀ args, get.Sound reg (elem.instantiate args)) ∧ ∀ f ∈ set, f.Sound reg .void
  | binaryOperator _ op _ _ ret f =>
    ∀ args t, reg.Expects (.binary op) (ret.instantiate args) t → f.Sound reg t
  | unaryOperator _ _ _ ret f => ∀ args, f.Sound reg (ret.instantiate args)
  | insertion _ _ _ _ f => f.Sound reg .void
  | cast _ target f => f.Sound reg target

theorem Sound.keeps {reg : Registry} {decl : Declaration} (h : decl.Sound reg) (n : Nat) :
    ∃ n', Build.Keeps reg n n' decl.build := by
  cases decl with
  | type name =>
    have hk : Build.Keeps reg n (n + 1) (Build.declareGeneric name 0 >>= fun _ => pure ()) :=
      Build.keeps_declareGeneric Build.keeps_pure
    exact ⟨n + 1, fun b hb hn => hk b hb hn⟩
  | generic name arity => exact ⟨n + 1, Build.keeps_declareGeneric Build.keeps_pure⟩
  | base d t => exact ⟨n, Build.keeps_base⟩
  | constructor d params f => exact ⟨n, Build.keeps_constructor fun ht => (h _ _ ht).safe _⟩
  | method d name typeParams isStatic params ret f =>
    exact ⟨n, Build.keeps_genericMethod fun _ _ => (h _).safe _⟩
  | property d name sig get => exact ⟨n, Build.keeps_property fun _ => (h _).safe _⟩
  | settableProperty d name sig get set =>
    exact ⟨n, Build.keeps_settableProperty (fun _ => (h.1 _).safe _) fun _ => h.2.safe _⟩
  | staticProperty d name sig get => exact ⟨n, Build.keeps_staticProperty fun _ => (h _).safe _⟩
  | indexer d index elem get set =>
    exact ⟨n, Build.keeps_indexer (fun _ => (h.1 _).safe _) fun hs _ => (h.2 _ hs).safe _⟩
  | binaryOperator d op left right ret f =>
    exact ⟨n, Build.keeps_binaryOperator fun hr => (h _ _ hr).safe _⟩
  | unaryOperator d op operand ret f =>
    exact ⟨n, Build.keeps_unaryOperator ((h _).safe _)⟩
  | insertion d kind elem name f => exact ⟨n, Build.keeps_insertion fun _ => h.safe _⟩
  | function name typeParams params ret f =>
    exact ⟨n, Build.keeps_function fun _ => (h _).safe _⟩
  | cast source target f => exact ⟨n, Build.keeps_cast (h.safe _)⟩

end Declaration

namespace Registry

/-- Everything that is built in, and then what an application declares. -/
def declare (decls : List Declaration) : Build Unit := do
  Build.standard
  decls.forM Declaration.build

/-- The standard registry with what an application declares. -/
def declared (decls : List Declaration) : Registry :=
  ((declare decls).run Builder.primitive).2.registry

theorem safeIn_primitive (reg : Registry) : reg.SafeIn primitive := by
  refine ⟨fun {t d args} _ => ?_, fun {name o own} h _ => ?_, fun {s t id} h => ?_⟩
  · have hd : primitive.definition d = .bare "string" 0 ∨ primitive.definition d = .bare "[]" 1 ∨
        primitive.definition d = default := by
      match d with
      | 0 => exact .inl rfl
      | 1 => exact .inr (.inl rfl)
      | _ + 2 => exact .inr (.inr rfl)
    rcases hd with hd | hd | hd
    · rw [hd]
      exact Definition.works_bare _ _
    · rw [hd]
      exact Definition.works_bare _ _
    · rw [hd]
      exact Definition.works_bare _ _
  · cases h
  · cases h

/-- **In a registry of sound declarations all callables work.** -/
theorem safeIn_declared {reg : Registry} (hr : reg.Rooted) {decls : List Declaration}
    (h : ∀ decl ∈ decls, decl.Sound reg) : reg.SafeIn (declared decls) := by
  have hkeeps (n : Nat) : ∃ n', Build.Keeps reg n n' (decls.forM Declaration.build) := by
    induction decls generalizing n with
    | nil => exact ⟨n, Build.keeps_pure⟩
    | cons decl decls ih =>
      obtain ⟨n', hn⟩ := (h decl (.head _)).keeps n
      obtain ⟨n'', hn'⟩ := ih (fun d hd => h d (.tail _ hd)) n'
      exact ⟨n'', hn.bind hn'⟩
  -- the standard registry has eight definitions
  obtain ⟨n', hn⟩ := hkeeps 8
  exact (((Build.keeps_standard hr).bind hn) _ (safeIn_primitive reg) rfl).1

end Registry

end TypedExpr
