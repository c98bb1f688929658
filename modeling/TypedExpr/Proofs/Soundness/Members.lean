import TypedExpr.Proofs.Soundness.Builtin
import TypedExpr.Proofs.Typing.Uses
/-!
# Members whose callables work

A callable works if it may be called with what a use of it passes, for what the use expects. What is
known of the callables behind a definition is said for each type that the definition is behind, and
for the registry as it is when everything has been declared.

* `Definition.Works`: the callables behind a definition work.
* `Registry.SafeIn`: all callables of a registry work.
* `Build.Keeps`: steps of construction after which they still do.
-/

namespace TypedExpr

/-- There is such a callable, and it may be called with arguments of some types, for a result of a
type. -/
def Registry.Works (reg : Registry) (cs : Array Callable) (id : CallableId) (params : List Ty)
    (ret : Ty) : Prop :=
  ∃ c, cs[id]? = some c ∧ c.function.Safe reg params ret

/-- What an overload of an operator is expected to give. An assignment with an operation expects
what it can store. -/
def Registry.Expects (reg : Registry) : OperatorKey → Ty → Ty → Prop
  | .unary _, ret, t => t = ret
  | .binary _, ret, t => t = ret ∨ reg.isAssignable ret t = true

/-- The callables behind a definition work for a type it is behind, with these type arguments. An
operator may be called with any arguments: the target of an assignment is not converted. -/
structure Definition.Works (reg : Registry) (cs : Array Callable) (t : Ty) (args : List Ty)
    (d : Definition) : Prop where
  constructor {o : Overload} (h : o ∈ d.constructors) :
    reg.Works cs o.callable (o.params.map (·.instantiate args)) t
  method {name : String} {m : Method} {own : List Ty} (h : m ∈ (d.methods.get? name).getD [])
    (ho : m.overload.typeParams = own.length) :
    reg.Works cs m.overload.callable
      (t.receiver m.isStatic ++ m.overload.params.map (·.instantiate (args ++ own)))
      (m.overload.ret.instantiate (args ++ own))
  getter {name : String} {p : Property} (h : d.properties.get? name = some p) :
    reg.Works cs p.get (t.receiver p.isStatic) (p.type.instantiate args)
  setter {name : String} {p : Property} {set : CallableId} (h : d.properties.get? name = some p)
    (hs : p.set = some set) :
    reg.Works cs set (t.receiver p.isStatic ++ [p.type.instantiate args]) .void
  itemGetter {i : Indexer} (h : d.indexer = some i) :
    reg.Works cs i.get [t, i.index.instantiate args] (i.elem.instantiate args)
  itemSetter {i : Indexer} {set : CallableId} (h : d.indexer = some i) (hs : i.set = some set) :
    reg.Works cs set [t, i.index.instantiate args, i.elem.instantiate args] .void
  operator {key : OperatorKey} {o : Overload} {ret : Ty} (h : (key, o) ∈ d.operators)
    (hr : reg.Expects key (o.ret.instantiate args) ret) (params : List Ty) :
    reg.Works cs o.callable params ret
  insertion {i : Insertion} (h : i ∈ d.insertions) :
    reg.Works cs i.callable [t, i.elem.instantiate args] .void

/-- All callables of the registry work, where values are taken as another registry has them. -/
structure Registry.SafeIn (reg r : Registry) : Prop where
  definitions {t : Ty} {d : DefId} {args : List Ty} (h : defOf? t = some (d, args)) :
    (r.definition d).Works reg r.callables t args
  functions {name : String} {o : Overload} {own : List Ty}
    (h : o ∈ (r.functions.get? name).getD []) (ho : o.typeParams = own.length) :
    reg.Works r.callables o.callable (o.params.map (·.instantiate own)) (o.ret.instantiate own)
  casts {source target : Ty} {id : CallableId} (h : ((source, target), id) ∈ r.casts) :
    reg.Works r.callables id [source] target

section

variable {reg r : Registry} {cs : Array Callable} {c : Callable} {id : CallableId}
  {params : List Ty} {t ret : Ty} {d : DefId} {args : List Ty}

theorem Registry.Works.push (h : reg.Works cs id params ret) :
    reg.Works (cs.push c) id params ret := by
  obtain ⟨c', hc, hsafe⟩ := h
  have hid : id ≠ cs.size := by
    rintro rfl
    rw [Array.getElem?_size] at hc
    cases hc
  exact ⟨c', by rwa [Array.getElem?_push, if_neg hid], hsafe⟩

theorem Registry.Works.new (h : c.function.Safe reg params ret) :
    reg.Works (cs.push c) cs.size params ret :=
  ⟨c, by rw [Array.getElem?_push, if_pos rfl], h⟩

theorem Definition.Works.push {d : Definition} (h : d.Works reg cs t args) :
    d.Works reg (cs.push c) t args where
  constructor ho := (h.constructor ho).push
  method hm ho := (h.method hm ho).push
  getter hp := (h.getter hp).push
  setter hp hs := (h.setter hp hs).push
  itemGetter hi := (h.itemGetter hi).push
  itemSetter hi hs := (h.itemSetter hi hs).push
  operator ho hr params := (h.operator ho hr params).push
  insertion hi := (h.insertion hi).push

theorem Definition.works_bare (name : String) (arity : Nat) :
    (Definition.bare name arity).Works reg cs t args := by
  constructor <;> intros <;> simp_all [Definition.bare, NameMap.empty, NameMap.get?, NameMap.find]

namespace Registry.SafeIn

theorem push (h : reg.SafeIn r) : reg.SafeIn { r with callables := r.callables.push c } where
  definitions ht := (h.definitions ht).push
  functions hf ho := (h.functions hf ho).push
  casts hc := (h.casts hc).push

/-- A definition is changed. -/
theorem modify (h : reg.SafeIn r) {f : Definition → Definition}
    (hf : ∀ {t args}, defOf? t = some (d, args) → (r.definition d).Works reg r.callables t args →
      (f (r.definition d)).Works reg r.callables t args) :
    reg.SafeIn { r with definitions := r.definitions.modify d f } := by
  refine ⟨fun {t d' args} ht => ?_, h.functions, h.casts⟩
  have hd := h.definitions ht
  by_cases heq : d = d'
  · subst heq
    cases hdef : r.definitions[d]? with
    | none =>
      simp only [Registry.definition, Array.getElem?_modify, hdef] at hd ⊢
      simpa using hd
    | some def' =>
      have hsome : r.definition d = def' := by simp [Registry.definition, hdef]
      have := hf ht hd
      rw [hsome] at this
      simpa [Registry.definition, Array.getElem?_modify, hdef] using this
  · have hsame : (r.definitions.modify d f)[d']? = r.definitions[d']? := by
      simp [Array.getElem?_modify, heq]
    rw [Registry.definition, hsame]
    exact hd

/-- A definition without members is declared. -/
theorem declare (h : reg.SafeIn r) (name : String) (arity : Nat) (names : NameMap DefId) :
    reg.SafeIn { r with definitions := r.definitions.push (.bare name arity), names := names } := by
  refine ⟨fun {t d' args} ht => ?_, h.functions, h.casts⟩
  by_cases heq : d' = r.definitions.size
  · rw [Registry.definition, Array.getElem?_push, if_pos heq]
    exact Definition.works_bare name arity
  · rw [Registry.definition, Array.getElem?_push, if_neg heq]
    exact h.definitions ht

end Registry.SafeIn

/-! ### Steps of construction -/

namespace Build

/-- The step keeps all callables working. There are so many definitions before and after. -/
def Keeps (reg : Registry) (n n' : Nat) (m : Build Unit) : Prop :=
  ∀ b, reg.SafeIn b.registry → b.registry.definitions.size = n →
    reg.SafeIn (m.run b).2.registry ∧ (m.run b).2.registry.definitions.size = n'

variable {n n' n'' : Nat} {name : String} {f : HostFunction} {sigs : List TypeSig} {sig : TypeSig}

theorem Keeps.bind {m : Build Unit} {k : Unit → Build Unit} (hm : Keeps reg n n' m)
    (hk : Keeps reg n' n'' (k ())) : Keeps reg n n'' (m >>= k) := by
  intro b hb hn
  obtain ⟨hb', hn'⟩ := hm b hb hn
  exact hk _ hb' hn'

theorem keeps_pure : Keeps reg n n (pure ()) := fun _ hb hn => ⟨hb, hn⟩

theorem keeps_noteType : Keeps reg n n (noteType t) := fun _ hb hn => ⟨hb, hn⟩

theorem keeps_declareGeneric {arity : Nat} {k : DefId → Build Unit}
    (hk : Keeps reg (n + 1) n' (k n)) : Keeps reg n n' (declareGeneric name arity >>= k) := by
  intro b hb hn
  subst hn
  exact hk _ (hb.declare name arity _) (Array.size_push _)

theorem keeps_base {u : Ty} : Keeps reg n n (base d u) :=
  fun _ hb hn => ⟨hb.modify fun _ h => { h with }, Array.size_modify.trans hn⟩

theorem keeps_constructor
    (hf : ∀ {t args}, Registry.defOf? t = some (d, args) →
      f.Safe reg (sigs.map (·.instantiate args)) t) : Keeps reg n n (constructor d sigs f) := by
  intro b hb hn
  refine ⟨hb.push.modify fun ht h => { h with constructor := fun ho => ?_ },
    Array.size_modify.trans hn⟩
  rcases List.mem_append.1 ho with ho | ho
  · exact h.constructor ho
  · cases List.mem_singleton.1 ho
    exact .new (hf ht)

theorem keeps_genericMethod {typeParams : Nat} {isStatic : Bool}
    (hf : ∀ {t args own}, Registry.defOf? t = some (d, args) → typeParams = own.length →
      f.Safe reg (t.receiver isStatic ++ sigs.map (·.instantiate (args ++ own)))
        (sig.instantiate (args ++ own))) :
    Keeps reg n n (genericMethod d name typeParams isStatic sigs sig f) := by
  intro b hb hn
  refine ⟨hb.push.modify fun ht h => { h with method := fun {name'} {m} {own} hm ho => ?_ },
    Array.size_modify.trans hn⟩
  rw [NameMap.get?_insert] at hm
  split at hm
  · rcases List.mem_append.1 hm with hm | hm
    · exact h.method hm ho
    · cases List.mem_singleton.1 hm
      exact .new (hf ht ho)
  · exact h.method hm ho

theorem keeps_method
    (hf : ∀ {t args}, Registry.defOf? t = some (d, args) →
      f.Safe reg (t :: sigs.map (·.instantiate args)) (sig.instantiate args)) :
    Keeps reg n n (method d name sigs sig f) := by
  refine keeps_genericMethod fun ht ho => ?_
  rw [List.length_eq_zero_iff.1 ho.symm, List.append_nil]
  exact hf ht

theorem keeps_staticMethod
    (hf : ∀ args : List Ty, f.Safe reg (sigs.map (·.instantiate args)) (sig.instantiate args)) :
    Keeps reg n n (staticMethod d name sigs sig f) := by
  refine keeps_genericMethod fun _ ho => ?_
  rw [List.length_eq_zero_iff.1 ho.symm, List.append_nil]
  exact hf _

/-- A property that has been given its callables. -/
theorem keeps_addProperty {p : Property} {b : Builder} (hb : reg.SafeIn b.registry)
    (hn : b.registry.definitions.size = n)
    (hp : ∀ {t args}, Registry.defOf? t = some (d, args) →
      reg.Works b.registry.callables p.get (t.receiver p.isStatic) (p.type.instantiate args) ∧
        ∀ set ∈ p.set, reg.Works b.registry.callables set
          (t.receiver p.isStatic ++ [p.type.instantiate args]) .void) :
    reg.SafeIn ((addProperty d name p).run b).2.registry ∧
      ((addProperty d name p).run b).2.registry.definitions.size = n := by
  refine ⟨hb.modify fun ht h =>
    { h with getter := fun {name'} {p'} hp' => ?_, setter := fun {name'} {p'} {set} hp' hs => ?_ },
    Array.size_modify.trans hn⟩
  · rw [NameMap.get?_insert] at hp'
    split at hp'
    · cases hp'
      exact (hp ht).1
    · exact h.getter hp'
  · rw [NameMap.get?_insert] at hp'
    split at hp'
    · cases hp'
      exact (hp ht).2 set hs
    · exact h.setter hp' hs

theorem keeps_property
    (hf : ∀ {t args}, Registry.defOf? t = some (d, args) →
      f.Safe reg [t] (sig.instantiate args)) : Keeps reg n n (property d name sig f) :=
  fun _ hb hn => keeps_addProperty hb.push hn fun ht => ⟨.new (hf ht), by simp⟩

theorem keeps_settableProperty {set : HostFunction}
    (hf : ∀ {t args}, Registry.defOf? t = some (d, args) →
      f.Safe reg [t] (sig.instantiate args))
    (hs : ∀ {t args}, Registry.defOf? t = some (d, args) →
      set.Safe reg [t, sig.instantiate args] .void) :
    Keeps reg n n (settableProperty d name sig f set) :=
  fun _ hb hn => keeps_addProperty hb.push.push hn fun ht =>
    ⟨.push (.new (hf ht)), fun _ h => Option.some.inj h ▸ .new (hs ht)⟩

theorem keeps_staticProperty
    (hf : ∀ {t args}, Registry.defOf? t = some (d, args) →
      f.Safe reg [] (sig.instantiate args)) : Keeps reg n n (staticProperty d name sig f) :=
  fun _ hb hn => keeps_addProperty hb.push hn fun ht => ⟨.new (hf ht), by simp⟩

theorem keeps_indexer {elem : TypeSig} {set : Option HostFunction}
    (hf : ∀ {t args}, Registry.defOf? t = some (d, args) →
      f.Safe reg [t, sig.instantiate args] (elem.instantiate args))
    (hs : ∀ {t args s}, set = some s → Registry.defOf? t = some (d, args) →
      s.Safe reg [t, sig.instantiate args, elem.instantiate args] .void) :
    Keeps reg n n (indexer d sig elem f set) := by
  intro b hb hn
  cases set with
  | none =>
    refine ⟨hb.push.modify fun ht h => { h with
      itemGetter := fun hi => ?_, itemSetter := fun hi hs => ?_ }, Array.size_modify.trans hn⟩
    · cases hi
      exact .new (hf ht)
    · cases hi
      cases hs
  | some set =>
    refine ⟨hb.push.push.modify fun ht h => { h with
      itemGetter := fun hi => ?_, itemSetter := fun hi hset => ?_ }, Array.size_modify.trans hn⟩
    · cases hi
      exact .push (.new (hf ht))
    · cases hi
      cases hset
      exact .new (hs rfl ht)

theorem keeps_binaryOperator {op : BinaryOp} {left right : TypeSig}
    (hf : ∀ {args ret params}, reg.Expects (.binary op) (sig.instantiate args) ret →
      f.Safe reg params ret) :
    Keeps reg n n (binaryOperator d op left right sig f) := by
  intro b hb hn
  refine ⟨hb.push.modify fun _ h => { h with operator := fun ho hr params => ?_ },
    Array.size_modify.trans hn⟩
  rcases List.mem_append.1 ho with ho | ho
  · exact h.operator ho hr params
  · cases List.mem_singleton.1 ho
    exact .new (hf hr)

theorem keeps_unaryOperator {op : UnaryOp} {operand : TypeSig}
    (hf : ∀ {args params}, f.Safe reg params (sig.instantiate args)) :
    Keeps reg n n (unaryOperator d op operand sig f) := by
  intro b hb hn
  refine ⟨hb.push.modify fun _ h => { h with operator := fun ho hr params => ?_ },
    Array.size_modify.trans hn⟩
  rcases List.mem_append.1 ho with ho | ho
  · exact h.operator ho hr params
  · cases List.mem_singleton.1 ho
    cases hr
    exact .new hf

theorem keeps_insertion {kind : InsertKind}
    (hf : ∀ {t args}, Registry.defOf? t = some (d, args) →
      f.Safe reg [t, sig.instantiate args] .void) :
    Keeps reg n n (insertion d kind sig name f) := by
  intro b hb hn
  refine ⟨hb.push.modify fun ht h => { h with insertion := fun hi => ?_ },
    Array.size_modify.trans hn⟩
  rcases List.mem_append.1 hi with hi | hi
  · exact h.insertion hi
  · cases List.mem_singleton.1 hi
    exact .new (hf ht)

theorem keeps_function {typeParams : Nat}
    (hf : ∀ {own : List Ty}, typeParams = own.length →
      f.Safe reg (sigs.map (·.instantiate own)) (sig.instantiate own)) :
    Keeps reg n n (function name typeParams sigs sig f) := by
  intro b hb hn
  refine ⟨⟨hb.push.definitions, fun {name'} {o} {own} h ho => ?_, hb.push.casts⟩, hn⟩
  change o ∈ ((NameMap.insert _ name _).get? name').getD [] at h
  rw [NameMap.get?_insert] at h
  split at h
  · rcases List.mem_append.1 h with h | h
    · exact hb.push.functions h ho
    · cases List.mem_singleton.1 h
      exact .new (hf ho)
  · exact hb.push.functions h ho

theorem keeps_cast {source target : Ty} (hf : f.Safe reg [source] target) :
    Keeps reg n n (cast source target f) := by
  intro b hb hn
  refine ⟨⟨hb.push.definitions, hb.push.functions, fun {s t id} h => ?_⟩, hn⟩
  rcases List.mem_append.1 h with h | h
  · exact hb.push.casts (List.mem_filter.1 h).1
  · cases List.mem_singleton.1 h
    exact .new hf

end Build

end

end TypedExpr
