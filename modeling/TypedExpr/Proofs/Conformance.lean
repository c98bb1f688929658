import TypedExpr.Proofs.Conformance.Guarded
import TypedExpr.Proofs.Evaluation.Moves
import TypedExpr.Proofs.Evaluation.WellTyped
import TypedExpr.Proofs.Typing.Accepted
import TypedExpr.Sample.Addable
/-!
# Values and arguments that conform

What the host gives back is checked for members, functions and constructors, whatever it is; only
overloaded operators and casts must deliver what they are called for. So the value of what is
accepted conforms to its type, and the variables keep values that conform. All calls have arguments
that conform to the parameters of what was resolved.

* `Context.Conforms`: all variables have values that conform.
* `Registry.conformance_governs`: types govern the calls made and the variables.
* `Parser.next_conforms`: **the value of what is accepted conforms, and so do the variables.**
* `Parser.next_calls`: **the host is called with arguments that conform.**
-/

namespace TypedExpr

variable {reg : Registry} {scope : Scope} {e : Expr} {calls : List CallRecord}

/-! ### Values -/

/-- All variables have values that conform to their types. -/
def Context.Conforms (reg : Registry) (context : Context) : Prop :=
  ∀ name b, context.binding? name = some b → reg.conforms b.value b.type = true

namespace Context.Conforms

variable {context : Context} {t : Ty} {v : Value}

theorem yields_read (hc : context.Conforms reg) (c : Catalog) (name : String) (t : Ty) :
    Yields (fun _ => True) (reg.Fits t) (context.read c name t) := by
  cases hread : context.read c name t with
  | ok v => exact .ok fun _ => hc name _ (Context.read_ok.1 hread)
  | error _ => exact .error trivial

theorem yields_write (hc : context.Conforms reg) (ht : t ≠ .void) (hv : reg.Fits t v)
    (c : Catalog) (name : String) :
    Yields (fun _ => True) (Context.Conforms reg) (context.write c name t v) := by
  cases hwrite : context.write c name t v with
  | error _ => exact .error trivial
  | ok context' =>
    obtain ⟨-, hbind⟩ := Context.write_ok hwrite
    refine .ok fun x b hb => ?_
    rw [hbind x] at hb
    split at hb
    · cases hb
      exact hv ht
    · exact hc x b hb

end Context.Conforms

/-- A step changes no type. -/
theorem Registry.Fits.yields_stepValue {t : Ty} {v : Value} (h : reg.Fits t v) (op : StepOp) :
    Yields (fun _ => True) (reg.Fits t) (stepValue op v) := by
  have hplain {s : Ty} (hv : v.Plain s) (hn : stepPlan? s ≠ none) :
      Yields (fun _ => True) (reg.Fits t) (stepValue op v) := by
    obtain ⟨plan, hp⟩ := Option.ne_none_iff_exists'.1 hn
    have hstep : Yields Fault.Expected (Value.Plain s) (stepValue op v) :=
      TypedExpr.yields_stepValue hp hv
    exact (hstep.allow fun _ _ => trivial).mono fun w hw => h.plain hv.type? hw
  cases v with
  | int n => exact hplain (.int n) (by simp [stepPlan?])
  | double x => exact hplain (.double x) (by simp [stepPlan?])
  | _ => exact .error trivial

namespace Registry

/-! ### The regime -/

/-- The calls that an evaluation makes and the variables that it keeps. What it uses delivers. -/
def conformance (reg : Registry) (scope : Scope) (e : Expr) (calls : List CallRecord) :
    Regime Discipline.Fixed where
  world := recording (e.Calls reg scope) calls
  binds _ context := context.Conforms reg
  has _ := reg.Fits
  uses use := e.Uses reg scope use ∧ use.Delivers reg

variable (hr : reg.ReferenceBases)

/-- Arguments that are taken conform. -/
theorem conformAll {w : Discipline.Fixed} {params : List Ty} {args : List Value}
    (h : List.Forall₂ ((reg.conformance scope e calls).Takes w) params args) :
    reg.ConformAll params args :=
  h.imp fun _ _ h => h.2 h.1

/-- A value is used as text. -/
theorem conformance_text (v : Value) :
    (recording (e.Calls reg scope) calls).Keeps ⟨⟩ (reg.toText v) fun _ _ => True := by
  refine records_toText fun t p method hv hmethod => ?_
  subst hv
  exact .text hmethod (textMethod?_conforms hmethod p)

include hr

/-- **Types govern the calls that are made and the variables that are kept.** -/
theorem conformance_governs : (reg.conformance scope e calls).Governs reg scope where
  expected _ := trivial
  mono h _ := h
  plain _ _ _ h := Fits.of_type? h.type?
  default _ := Fits.default
  assignable h := h.assignable hr
  checked _ hc := fun _ => hc
  reads {_ t v} _ := .any t v
  step _ hv := hv.yields_stepValue _
  binds_mono h _ := h
  read _ hc c := hc.yields_read c _ _
  write _ hc hv c := hc.yields_write hv.1 hv.2 c _
  newArray _ := fun _ hs => ⟨⟨⟩, le_rfl, hs, Fits.of_type? rfl⟩
  text _ := conformance_text _
  call h ha := records_call (.use h.used.1 (.conforming (conformAll ha))) (Gives.any _ _)
  callFor h ha := records_callFor (.use h.used.1 (.conforming (conformAll ha)))
  callUnary _ hu hv := records_call (.use hu.1 (.conforming (conformAll (.cons hv .nil)))) hu.2
  callBinary _ hu hv hv' :=
    records_call (.use hu.1 (.conforming (conformAll (.cons hv (.cons hv' .nil))))) hu.2
  callCompound {_ op target source p q ret id v u} h hu ha hp hv hv' := by
    have htakes : Use.Takes reg ⟨⟨id, [p, q], target⟩, .stored⟩ [v, u] := by
      by_cases hd : target = .int ∧ p = .double
      · obtain ⟨rfl, rfl⟩ := hd
        exact .unpromoted rfl rfl rfl (conformAll (.cons hv (.cons hv' .nil)))
      · have hleft := hv.2.assignable hr hp hd
        exact .conforming
          (conformAll (.cons ⟨(ne_void_of_isAssignable hp).2, hleft⟩ (.cons hv' .nil)))
    exact records_call (.use hu.1 htakes) hu.2
  callCast _ hu hv := records_call (.use hu.1 (.conforming (conformAll (.cons hv .nil)))) hu.2

end Registry

namespace Parser

variable {s : Setting} {p q : ParseState}

/-- What is accepted evaluates to a value of its type, if what it uses delivers. -/
theorem next_evaluates (hr : s.registry.ReferenceBases) (hp : (next s).run p = (.ok (some e), q))
    (hd : ∀ use, e.Uses s.registry s.scope use → use.Delivers s.registry)
    (calls : List CallRecord) :
    e.Evaluates (s.registry.conformance s.scope e calls) s.registry s.scope :=
  (next_wellTyped hp).evaluates (Registry.conformance_governs hr) fun use hu => ⟨hu, hd use hu⟩

/-- **The value of what is accepted conforms to its type, and the variables keep values that
conform.** All that the host gives back may be wrong, only the overloads and the casts used must
deliver. What is wrong makes the evaluation fail: it comes to the same if the host itself fails in
place of giving back what is wrong. -/
theorem next_conforms (hr : s.registry.ReferenceBases) (hp : (next s).run p = (.ok (some e), q))
    (hd : ∀ use, e.Uses s.registry s.scope use → use.Delivers s.registry) {st st' : EvalState}
    {result : Except EvalError Value} (hvars : st.context.Conforms s.registry)
    (hrun : (e.denote s.registry).value.run st = (result, st')) :
    st'.context.Conforms s.registry ∧ SameTypes st st' ∧
      (∀ v, result = .ok v → e.type ≠ .void → s.registry.conforms v e.type = true) ∧
      (s.registry.TextsDeliver → (e.denote s.registry.guarded).value.run st = (result, st')) := by
  have htypes := e.keeps_types s.registry st
  have heval := (next_evaluates hr hp hd st.world.calls.toList).value ⟨⟩
  obtain ⟨_, -, ⟨-, hvars'⟩, hresult⟩ := heval st ⟨⟨[], by simp, by simp⟩, hvars⟩
  rw [hrun] at htypes hvars' hresult
  refine ⟨hvars', htypes, ?_, fun ht => ?_⟩
  · rintro v rfl
    exact hresult
  · rw [(next_wellTyped hp).denote_guarded hd ht]
    exact hrun

/-- **The host is called with arguments that conform** to the parameters of what was resolved, one
to one, a receiver before all others. Only the target of an assignment with an operation may be an
integer for a double. -/
theorem next_calls (hr : s.registry.ReferenceBases) (hp : (next s).run p = (.ok (some e), q))
    (hd : ∀ use, e.Uses s.registry s.scope use → use.Delivers s.registry) {st st' : EvalState}
    {result : Except EvalError Value} (hvars : st.context.Conforms s.registry)
    (hrun : (e.denote s.registry).value.run st = (result, st')) :
    ∃ made, st'.world.calls.toList = st.world.calls.toList ++ made ∧
      ∀ call ∈ made, e.Calls s.registry s.scope call := by
  have heval := (next_evaluates hr hp hd st.world.calls.toList).value ⟨⟩
  obtain ⟨_, -, ⟨hmade, -⟩, -⟩ := heval st ⟨⟨[], by simp, by simp⟩, hvars⟩
  rw [hrun] at hmade
  exact hmade

end Parser

/-! ### An application -/

theorem Use.delivers_of_checked {use : Use} (h : use.reception = .checked) : use.Delivers reg := by
  unfold Use.Delivers
  rw [h]
  trivial

theorem ResolvedProperty.reception_of_mem {p : ResolvedProperty} {receiver : List Ty} {use : Use}
    (h : use ∈ p.uses receiver) : use.reception = .checked := by
  rcases List.mem_cons.1 h with rfl | h
  · rfl
  · obtain ⟨set, -, rfl⟩ := List.mem_map.1 h
    rfl

theorem ResolvedIndexer.reception_of_mem {i : ResolvedIndexer} {container : Ty} {use : Use}
    (h : use ∈ i.uses container) : use.reception = .checked := by
  rcases List.mem_cons.1 h with rfl | h
  · rfl
  · obtain ⟨set, -, rfl⟩ := List.mem_map.1 h
    rfl

namespace Registry

/-- Overloads of operators and casts give what they are called for. -/
structure Delivers (reg : Registry) : Prop where
  unary {op : UnaryOp} {t : Ty} {call : ResolvedCall}
    (h : reg.resolveUnaryOperator op t = .ok (some call)) : Use.Delivers reg ⟨call, .trusted⟩
  binary {op : BinaryOp} {l r : Ty} {call : ResolvedCall}
    (h : reg.resolveBinaryOperator op l r = .ok (some call)) : Use.Delivers reg ⟨call, .trusted⟩
  compound {op : BinaryOp} {target source : Ty} {call : ResolvedCall}
    (h : reg.resolveBinaryOperator op target source = .ok (some call))
    (ha : reg.isAssignable call.ret target = true) :
    Use.Delivers reg ⟨{ call with ret := target }, .stored⟩
  cast {s t : Ty} {id : CallableId} (h : reg.cast? s t = some id) :
    Use.Delivers reg ⟨⟨id, [s], t⟩, .trusted⟩

/-- Then so does everything that an expression uses. -/
theorem Delivers.uses (hd : reg.Delivers) {use : Use} (h : e.Uses reg scope use) :
    use.Delivers reg := by
  induction h with
  | part _ _ ih => exact ih
  | @here _ _ _ _ _ use h hu =>
    cases h with
    | @unary _ _ typing _ h =>
      unfold UnaryTyping.uses at hu
      split at hu
      · rename_i id hid
        obtain rfl := List.mem_singleton.1 hu
        rcases typeUnary_ok h with ⟨plan, hplan, rfl⟩ | ⟨id', hid', -, hcall⟩
        · unfold builtinUnary? at hplan
          split at hplan <;> cases hplan <;> cases hid
        · cases hid.symm.trans hid'
          exact hd.unary hcall
      · cases hu
    | @binary _ _ _ typing _ _ h =>
      unfold BinaryTyping.uses at hu
      split at hu
      · rename_i id hid
        obtain rfl := List.mem_singleton.1 hu
        exact hd.binary (typeBinary_overload h hid)
      · cases hu
    | @compound _ _ typing target _ _ h =>
      obtain ⟨htype, ha⟩ := typeCompound_typing h
      unfold BinaryTyping.uses at hu
      split at hu
      · rename_i id hid
        obtain rfl := List.mem_singleton.1 hu
        exact hd.compound (typeBinary_overload htype hid) ha
      · cases hu
    | cast h =>
      cases explicitCast?_ok h with
      | host hcast =>
        obtain rfl := List.mem_singleton.1 hu
        exact hd.cast hcast
      | _ => cases hu
    | index => exact Use.delivers_of_checked (ResolvedIndexer.reception_of_mem hu)
    | property | staticProperty =>
      exact Use.delivers_of_checked (ResolvedProperty.reception_of_mem hu)
    | method | staticMethod | function | new =>
      obtain rfl := List.mem_singleton.1 hu
      exact Use.delivers_of_checked rfl
    | newItems =>
      rcases List.mem_cons.1 hu with rfl | hu
      · exact Use.delivers_of_checked rfl
      · obtain rfl := List.mem_singleton.1 hu
        exact Use.delivers_of_checked rfl
    | _ => cases hu

theorem referenceBases_addable : addable.ReferenceBases := by
  intro d t h
  match d with
  | 0 | 1 | 2 => cases h
  | _ + 3 => cases h

/-- The only overload adds to an integer. -/
theorem eq_of_mem_operators_addable {d : DefId} {key : OperatorKey} {o : Overload}
    (h : (key, o) ∈ (addable.definition d).operators) :
    key = .binary .add ∧ o.ret = .fixed .int := by
  match d with
  | 0 | 1 => cases h
  | 2 =>
    obtain ⟨rfl, rfl⟩ := Prod.mk.inj (List.mem_singleton.1 h)
    exact ⟨rfl, rfl⟩
  | _ + 3 => cases h

theorem gives_addable (id : CallableId) (t : Ty) : addable.Gives id t (· = .int 7) := by
  intro c hc args label heap v hv
  match id with
  | 0 =>
    cases hc
    cases hv
    rfl
  | _ + 1 => cases hc

theorem ret_addable {t : Ty} {key : OperatorKey} {sources : List Ty} {call : ResolvedCall}
    (h : addable.select (addable.operatorCandidates t key) [] sources = .ok call) :
    key = .binary .add ∧ call.ret = .int := by
  obtain ⟨⟨o, args⟩, hc, -, rfl, -⟩ := select_ok h
  obtain ⟨u, d, -, ho⟩ := mem_operatorCandidates hc
  obtain ⟨hkey, hret⟩ := eq_of_mem_operators_addable ho
  rw [call_nil, hret]
  exact ⟨hkey, rfl⟩

theorem delivers_addable : addable.Delivers where
  unary h := by cases (ret_addable (selectOperator_ok h)).1
  binary {op l r call} h := by
    obtain ⟨owner, -, hselect⟩ := resolveBinaryOperator_ok h
    intro c hc args label heap v hv
    rw [gives_addable _ _ c hc args label heap v hv]
    show addable.Fits call.ret (.int 7)
    rw [(ret_addable hselect).2]
    exact Fits.of_type? rfl
  compound {op target source call} h ha := by
    obtain ⟨owner, -, hselect⟩ := resolveBinaryOperator_ok h
    intro c hc args label heap v hv
    rw [gives_addable _ _ c hc args label heap v hv]
    rw [(ret_addable hselect).2] at ha
    exact Fits.promote_plain referenceBases_addable (.int 7) ha
  cast h := by cases h

theorem textsDeliver_addable : addable.TextsDeliver := by
  intro t method h
  have hempty : addable.methodCandidates t "ToString" false = [] := by
    refine List.flatMap_eq_nil_iff.2 fun ⟨def', args⟩ hmem => ?_
    obtain ⟨u, d, -, -, rfl⟩ := mem_lineage hmem
    match d with
    | 0 | 1 | 2 => rfl
    | _ + 3 => rfl
  unfold textMethod? resolveMethod at h
  dsimp only at h
  rw [hempty] at h
  cases h

end Registry

/-- `n += t`, where `n` is an integer and `t` an object of the type `T`. -/
def Setting.added : Setting where
  registry := .addable
  scope := (NameMap.empty.insert "n" (.var .int)).insert "t" (.var (.named 2 []))
  options := .standard
  tokens := .ofTokens (#[.ident "n" [], .operator (.assign (.compound .add)), .ident "t" []].map
    .unplaced)

/-- `n` is 1 and `t` an object. -/
def EvalState.added : EvalState where
  context := .of ((NameMap.empty.insert "n" ⟨.int, .int 1⟩).insert "t"
    ⟨.named 2 [], .object (.named 2 []) 0⟩)
  world := default

theorem EvalState.conforms_added : added.context.Conforms .addable := by
  intro name b h
  have hget : added.context.binding? name =
      if name = "t" then some ⟨.named 2 [], .object (.named 2 []) 0⟩
      else if name = "n" then some ⟨.int, .int 1⟩ else none := by
    show NameMap.get? _ name = _
    rw [NameMap.get?_insert, NameMap.get?_insert]
    rfl
  rw [hget] at h
  split at h
  · cases h
    rfl
  · split at h
    · cases h
      rfl
    · cases h

namespace Parser

theorem next_conforms_added : ∃ e st', Setting.added.first? = some e ∧ e.type = .int ∧
    (e.denote .addable).value.run .added = (.ok (.int 7), st') ∧
    st'.context.Conforms .addable ∧ Registry.addable.conforms (.int 7) .int = true ∧
    (e.denote Registry.addable.guarded).value.run .added = (.ok (.int 7), st') := by
  have hfirst : Setting.added.first?.map (fun e => (e.type,
      ((e.denote .addable).value.run .added).1.toOption)) = some (.int, some (.int 7)) := by
    decide +kernel
  obtain ⟨e, he, heq⟩ := Option.map_eq_some_iff.1 hfirst
  obtain ⟨ht, hv⟩ := Prod.mk.inj heq
  obtain ⟨q, hp⟩ := Setting.exists_next he
  rcases hrun : (e.denote .addable).value.run .added with ⟨error | v, st'⟩
  · rw [hrun] at hv
    cases hv
  · rw [hrun] at hv
    cases hv
    obtain ⟨hvars, -, hresult, hguarded⟩ :=
      next_conforms (s := .added) Registry.referenceBases_addable hp
        (fun _ => Registry.delivers_addable.uses) EvalState.conforms_added hrun
    have hconforms := hresult (.int 7) rfl (by rw [ht]; simp)
    rw [ht] at hconforms
    exact ⟨e, st', he, ht, hrun, hvars, hconforms, hguarded Registry.textsDeliver_addable⟩

theorem next_calls_added : ∃ e result st' made, Setting.added.first? = some e ∧
    (e.denote .addable).value.run .added = (result, st') ∧
    st'.world.calls.toList = EvalState.added.world.calls.toList ++ made ∧
    made.map (·.args) = [[.int 1, .object (.named 2 []) 0]] ∧
    ∀ call ∈ made, e.Calls .addable Setting.added.scope call := by
  have hfirst : Setting.added.first?.map (fun e =>
      ((e.denote .addable).value.run .added).2.world.calls.toList.map (·.args)) =
        some [[.int 1, .object (.named 2 []) 0]] := by
    decide +kernel
  obtain ⟨e, he, hargs⟩ := Option.map_eq_some_iff.1 hfirst
  obtain ⟨q, hp⟩ := Setting.exists_next he
  rcases hrun : (e.denote .addable).value.run .added with ⟨result, st'⟩
  obtain ⟨made, hmade, hcalls⟩ := next_calls (s := .added) Registry.referenceBases_addable hp
    (fun _ => Registry.delivers_addable.uses) EvalState.conforms_added hrun
  have hall : st'.world.calls.toList = made := hmade
  rw [hrun, hall] at hargs
  exact ⟨e, result, st', made, he, hrun, hmade, hargs, hcalls⟩

end Parser

end TypedExpr
