import TypedExpr.Proofs.Soundness.Members
/-!
# Uses that work

What a look-up finds may be called with a receiver of the type looked at and with arguments of the
parameter types, for the type of the result. A member is found along the line of a type, and a value
of the type is one of every type on its line.

* `Registry.SafeIn.resolveMethod`, …: the callable found works.
* `Registry.SafeIn.resolves`: the same for whatever a use resolves to.
-/

namespace TypedExpr.Registry

variable {reg : Registry} {id : CallableId} {params params' : List Ty} {t u ret : Ty}

/-- The callable may be called with arguments of all types that go along with the parameters. -/
theorem Works.pass {cs : Array Callable} (h : reg.Works cs id params ret)
    (hp : ∀ l vs, List.Forall₂ (reg.Has l) params' vs → List.Forall₂ (reg.Has l) params vs) :
    reg.Works cs id params' ret := by
  obtain ⟨c, hc, hsafe⟩ := h
  exact ⟨c, hc, fun l vs label hvs => hsafe l vs label (hp l vs hvs)⟩

/-! ### Members -/

variable (hr : reg.Rooted)

include hr

/-- A member of a type may be used with a receiver that derives from it. -/
theorem Works.inherited {cs : Array Callable} (isStatic : Bool) {d : DefId} {args : List Ty}
    (h : reg.Works cs id (u.receiver isStatic ++ params) ret) (ht : reg.isSubtype t u = true)
    (hu : defOf? u = some (d, args)) :
    reg.Works cs id (t.receiver isStatic ++ params) ret := by
  cases isStatic with
  | true => exact h
  | false =>
    refine h.pass fun l vs hvs => ?_
    cases hvs with
    | cons hv hvs => exact .cons (hv.subtype hr (ne_void_of_isSubtype ht hu) ht) hvs

namespace SafeIn

variable (hs : reg.SafeIn reg)

include hs

theorem resolveMethod {name : String} {typeArgs sources : List Ty} {isStatic : Bool}
    {call : ResolvedCall} (h : reg.resolveMethod t name typeArgs sources isStatic = .ok call) :
    reg.Works reg.callables call.callable (t.receiver isStatic ++ call.params) call.ret := by
  unfold Registry.resolveMethod at h
  dsimp only at h
  split at h
  · cases h
  · obtain ⟨c, hc, htp, rfl, -⟩ := select_ok h
    obtain ⟨⟨def', args⟩, hmem, hc⟩ := List.mem_flatMap.1 hc
    obtain ⟨m, hm, hc⟩ := List.mem_filterMap.1 hc
    split at hc
    · rename_i hstatic
      cases hc
      subst hstatic
      obtain ⟨u, d, ht, hu, rfl⟩ := mem_lineage hmem
      exact ((hs.definitions hu).method hm htp).inherited hr _ ht hu
    · cases hc

theorem resolveProperty {name : String} {isStatic : Bool} {p : ResolvedProperty}
    (h : reg.resolveProperty t name isStatic = .ok p) :
    reg.Works reg.callables p.get (t.receiver isStatic) p.type ∧
      ∀ set ∈ p.set, reg.Works reg.callables set (t.receiver isStatic ++ [p.type]) .void := by
  unfold Registry.resolveProperty at h
  dsimp only at h
  split at h
  · rename_i p' hp
    cases h
    obtain ⟨⟨def', args⟩, hmem, hp⟩ := List.exists_of_findSome?_eq_some hp
    obtain ⟨q, hq, hp⟩ := Option.bind_eq_some_iff.1 hp
    split at hp
    · rename_i hstatic
      cases hp
      subst hstatic
      obtain ⟨u, d, ht, hu, rfl⟩ := mem_lineage hmem
      have hw := hs.definitions hu
      constructor
      · have hget := hw.getter hq
        rw [← List.append_nil (u.receiver _)] at hget
        rw [← List.append_nil (t.receiver _)]
        exact hget.inherited hr _ ht hu
      · intro set hset
        exact (hw.setter hq hset).inherited hr _ ht hu
    · cases hp
  · cases h

theorem resolveIndexer {i : ResolvedIndexer} (h : reg.resolveIndexer t = .ok i) :
    reg.Works reg.callables i.get [t, i.index] i.elem ∧
      ∀ set ∈ i.set, reg.Works reg.callables set [t, i.index, i.elem] .void := by
  unfold Registry.resolveIndexer at h
  dsimp only at h
  split at h
  · rename_i i' hi
    cases h
    obtain ⟨⟨def', args⟩, hmem, hi⟩ := List.exists_of_findSome?_eq_some hi
    obtain ⟨j, hj, hi⟩ := Option.map_eq_some_iff.1 hi
    subst hi
    obtain ⟨u, d, ht, hu, rfl⟩ := mem_lineage hmem
    have hw := hs.definitions hu
    exact ⟨Works.inherited hr false (hw.itemGetter hj) ht hu, fun set hset =>
      Works.inherited hr false (hw.itemSetter hj hset) ht hu⟩
  · cases h

omit hr in
theorem resolveConstructor {sources : List Ty} {call : ResolvedCall}
    (h : reg.resolveConstructor t sources = .ok call) :
    reg.Works reg.callables call.callable call.params t := by
  obtain ⟨call', hselect, rfl⟩ := resolveConstructor_ok h
  obtain ⟨c, hc, -, rfl, -⟩ := select_ok hselect
  unfold constructorCandidates at hc
  split at hc
  · rename_i def' args hd
    obtain ⟨o, ho, rfl⟩ := List.mem_map.1 hc
    obtain ⟨⟨d, args'⟩, hdef, heq⟩ := Option.map_eq_some_iff.1 hd
    cases heq
    rw [call_nil]
    exact (hs.definitions hdef).constructor ho
  · cases hc

omit hr in
theorem resolveFunction {name : String} {typeArgs sources : List Ty} {call : ResolvedCall}
    (h : reg.resolveFunction name typeArgs sources = .ok call) :
    reg.Works reg.callables call.callable call.params call.ret := by
  unfold Registry.resolveFunction at h
  split at h
  · obtain ⟨c, hc, htp, rfl, -⟩ := select_ok h
    obtain ⟨o, ho, rfl⟩ := List.mem_map.1 hc
    exact hs.functions ho htp
  · cases h

theorem resolveInsertion {i : ResolvedInsertion} (h : reg.resolveInsertion t = .ok i) :
    reg.Works reg.callables i.callable [t, i.elem] .void := by
  unfold Registry.resolveInsertion at h
  dsimp only at h
  split at h
  · rename_i j args hj
    cases h
    obtain ⟨⟨def', args'⟩, hmem, hi⟩ := List.mem_flatMap.1 (mem_of_leastBy hj)
    obtain ⟨j', hj', heq⟩ := List.mem_map.1 hi
    cases heq
    obtain ⟨u, d, ht, hu, rfl⟩ := mem_lineage hmem
    exact Works.inherited hr false ((hs.definitions hu).insertion hj') ht hu
  · cases h

/-- What a use resolves to may be called with arguments of the parameter types. -/
theorem resolves (h : reg.Resolves id params ret) : reg.Works reg.callables id params ret := by
  cases h with
  | method h => exact hs.resolveMethod hr h
  | function h => exact hs.resolveFunction h
  | constructor h => exact hs.resolveConstructor h
  | getter h => exact (hs.resolveProperty hr h).1
  | setter h hset => exact (hs.resolveProperty hr h).2 _ hset
  | itemGetter h => exact (hs.resolveIndexer hr h).1
  | itemSetter h hset => exact (hs.resolveIndexer hr h).2 _ hset
  | insertion h => exact hs.resolveInsertion hr h

omit hr in
theorem operator {key : OperatorKey} {sources : List Ty} {call : ResolvedCall}
    (h : reg.select (reg.operatorCandidates t key) [] sources = .ok call)
    (he : reg.Expects key call.ret ret) (params : List Ty) :
    reg.Works reg.callables call.callable params ret := by
  obtain ⟨⟨o, args⟩, hc, -, rfl, -⟩ := select_ok h
  obtain ⟨u, d, hu, ho⟩ := mem_operatorCandidates hc
  rw [call_nil] at he ⊢
  exact (hs.definitions hu).operator ho he params

omit hr in
theorem cast? {source target : Ty} (h : reg.cast? source target = some id) :
    reg.Works reg.callables id [source] target := by
  obtain ⟨⟨_, _⟩, hc, rfl⟩ := Option.map_eq_some_iff.1 h
  have hkey := List.find?_some hc
  cases of_decide_eq_true hkey
  exact hs.casts (List.mem_of_find?_eq_some hc)

end SafeIn

end TypedExpr.Registry
