import TypedExpr.Proofs.Evaluation.Discipline
import TypedExpr.Proofs.Soundness.Layout
import TypedExpr.Proofs.Typing.Plain
/-!
# Host functions that keep the heap typed

A host function keeps the heap typed if from every heap that is as a layout says it comes to one
that is as a greater layout says, and fails only for a reason that values alone can show. What it
gives is described at the greater layout.

* `Registry.host`: the discipline of a host function.
* `HostFunction.Sound`: what is asked of a function of the application, whatever its arguments are.
* `HostFunction.Safe`: what is asked of a function that is built in, for arguments of its
  parameter types.
-/

namespace TypedExpr

/-! ### The host -/

/-- What a host function does to the heap. -/
def Registry.host (reg : Registry) : Discipline Layout Heap Fault :=
  ⟨fun l h => h.Typed reg l, Fault.Expected⟩

namespace HostFunction

/-- The function may be called with arguments of some types, for a result of a type. -/
def Safe (reg : Registry) (f : HostFunction) (params : List Ty) (ret : Ty) : Prop :=
  ∀ l args label, List.Forall₂ (reg.Has l) params args →
    reg.host.Keeps l (f.run ⟨args, ret, label⟩) fun l' v => reg.Has l' ret v

/-- The function may be called with any arguments, for a result of a type. -/
def Sound (reg : Registry) (f : HostFunction) (ret : Ty) : Prop :=
  ∀ l args label, (∀ v ∈ args, l.Knows v) →
    reg.host.Keeps l (f.run ⟨args, ret, label⟩) fun l' v => reg.Has l' ret v

theorem Sound.safe {reg : Registry} {f : HostFunction} {ret : Ty} (h : f.Sound reg ret)
    (params : List Ty) : f.Safe reg params ret := by
  intro l args label hargs
  refine h l args label fun v hv => ?_
  clear h
  induction hargs with
  | nil => simp at hv
  | cons hab _ ih =>
    rcases List.mem_cons.1 hv with rfl | hv
    · exact hab.knows
    · exact ih hv

end HostFunction

namespace HostM

variable {reg : Registry} {l : Layout} {α : Type} {Q : Layout → α → Prop}

theorem keeps_lift {x : Except Fault α} (h : Yields Fault.Expected (Q l) x) :
    reg.host.Keeps l (HostM.lift x) Q := by
  cases h with
  | ok h => exact .pure h
  | error h => exact .throw h

theorem keeps_newArray {elem : Ty} {elems : Array Value} (h : ∀ v ∈ elems, reg.Has l elem v) :
    reg.host.Keeps l (newArray (.array elem) elems) fun l' v => reg.Has l' (.array elem) v :=
  fun _ hs => hs.allocArray h

theorem keeps_newObject {d : DefId} {args : List Ty} {payload : Payload}
    (hd : Registry.arrayDef < d) (h : payload.Typed reg l (.named d args)) :
    reg.host.Keeps l (newObject (.named d args) payload) fun l' v =>
      reg.Has l' (.named d args) v :=
  fun _ hs => hs.allocObject hd h

theorem keeps_setPayload {p : Nat} {t : Ty} {payload : Payload} {Q : Layout → Unit → Prop}
    (hp : l.objects[p]? = some t) (h : payload.Typed reg l t) (hQ : Q l ()) :
    reg.host.Keeps l (setPayload p payload) Q :=
  .modify (fun _ hs => hs.setPayload hp h) hQ

end HostM

/-! ### Arguments -/

namespace HostCall

variable {reg : Registry} {l : Layout} {params : List Ty} {call : HostCall} {i : Nat}
  (h : List.Forall₂ (reg.Has l) params call.args)

include h

theorem keeps_arg {t : Ty} (hp : params[i]? = some t) (function : String) :
    reg.host.Keeps l (call.arg function i) fun l' v => l' = l ∧ reg.Has l t v := by
  unfold arg
  cases hv : call.args[i]? with
  | none => exact .throw trivial
  | some v =>
    obtain ⟨hi, rfl⟩ := List.getElem?_eq_some_iff.1 hp
    obtain ⟨hj, rfl⟩ := List.getElem?_eq_some_iff.1 hv
    exact .pure ⟨rfl, List.forall₂_iff_get.1 h |>.2 i hi hj⟩

variable (hr : reg.Rooted)

include hr

theorem keeps_int (hp : params[i]? = some .int) (function : String) :
    reg.host.Keeps l (call.int function i) fun l' _ => l' = l := by
  refine (keeps_arg h hp function).bind ?_
  rintro l' v - ⟨rfl, hv⟩
  obtain ⟨n, rfl⟩ := hv.int hr
  exact .pure rfl

theorem keeps_double (hp : params[i]? = some .double) (function : String) :
    reg.host.Keeps l (call.double function i) fun l' _ => l' = l := by
  refine (keeps_arg h hp function).bind ?_
  rintro l' v - ⟨rfl, hv⟩
  obtain ⟨x, rfl⟩ := hv.double hr
  exact .pure rfl

theorem keeps_str {t : Ty} {args : List Ty} (hp : params[i]? = some t)
    (ht : Registry.defOf? t = some (Registry.stringDef, args)) (function : String) :
    reg.host.Keeps l (call.str function i) fun l' _ => l' = l := by
  refine (keeps_arg h hp function).bind ?_
  rintro l' v - ⟨rfl, hv⟩
  obtain ⟨s, rfl⟩ | rfl := hv.ofStringDef hr ht
  · exact .pure rfl
  · exact .throw trivial

theorem keeps_array {t : Ty} {args : List Ty} (hp : params[i]? = some t)
    (ht : Registry.defOf? t = some (Registry.arrayDef, args)) (function : String) :
    reg.host.Keeps l (call.array function i) fun l' p =>
      l' = l ∧ l.arrays[p]? = some (.array (args.getD 0 .object)) := by
  refine (keeps_arg h hp function).bind ?_
  rintro l' v - ⟨rfl, hv⟩
  obtain ⟨p, rfl, hp⟩ | rfl := hv.ofArrayDef hr ht
  · exact .pure ⟨rfl, hp⟩
  · exact .throw trivial

theorem keeps_object {d : DefId} {args : List Ty} (hp : params[i]? = some (.named d args))
    (hd : d < Registry.firstUser) (function : String) :
    reg.host.Keeps l (call.object function i) fun l' p =>
      l' = l ∧ l.objects[p]? = some (.named d args) := by
  refine (keeps_arg h hp function).bind ?_
  rintro l' v - ⟨rfl, hv⟩
  obtain ⟨p, rfl, hp⟩ | rfl := hv.named hr hd
  · exact .pure ⟨rfl, hp⟩
  · exact .throw trivial

end HostCall

end TypedExpr
