import TypedExpr.Builtin.Collections
import TypedExpr.Proofs.Typing.Fits
import TypedExpr.Proofs.Typing.Rule
/-!
# Layouts of the heap

A layout says of which type the array or object at each place is. Handles carry the type of their
place, and what is kept at a place is of the type that goes with it.

* `Layout.Knows`: a value is no handle, or a handle of its place.
* `Registry.Has`: a value of a type.
* `Heap.Typed`: what is kept in the heap is as the layout says.
-/

namespace TypedExpr

/-- The types of the arrays and of the objects, by place. -/
structure Layout where
  arrays : List Ty
  objects : List Ty

namespace Layout

/-- A layout grows: a place keeps its type. -/
instance : Preorder Layout where
  le l l' := (∀ (p : Nat) t, l.arrays[p]? = some t → l'.arrays[p]? = some t) ∧
    ∀ (p : Nat) t, l.objects[p]? = some t → l'.objects[p]? = some t
  le_refl _ := ⟨fun _ _ => id, fun _ _ => id⟩
  le_trans _ _ _ h h' := ⟨fun p t ht => h'.1 p t (h.1 p t ht), fun p t ht => h'.2 p t (h.2 p t ht)⟩

/-- The value is no handle, or it carries the type of its place: that of an array, or that of an
object. -/
inductive Knows (l : Layout) : Value → Prop where
  | int (n : Int64) : Knows l (.int n)
  | double (x : Float) : Knows l (.double x)
  | bool (b : Bool) : Knows l (.bool b)
  | str (s : String) : Knows l (.str s)
  | null : Knows l .null
  | void : Knows l .void
  | array {elem : Ty} {p : Nat} (h : l.arrays[p]? = some (.array elem)) :
    Knows l (.array (.array elem) p)
  | object {d : DefId} {args : List Ty} {p : Nat} (h : l.objects[p]? = some (.named d args))
    (hd : Registry.arrayDef < d) : Knows l (.object (.named d args) p)

theorem array_mono {l l' : Layout} {p : Nat} {t : Ty} (hl : l ≤ l')
    (h : l.arrays[p]? = some t) : l'.arrays[p]? = some t :=
  hl.1 p t h

theorem object_mono {l l' : Layout} {p : Nat} {t : Ty} (hl : l ≤ l')
    (h : l.objects[p]? = some t) : l'.objects[p]? = some t :=
  hl.2 p t h

theorem Knows.mono {l l' : Layout} {v : Value} (h : l.Knows v) (hl : l ≤ l') : l'.Knows v := by
  cases h with
  | array h => exact .array (array_mono hl h)
  | object h hd => exact .object (object_mono hl h) hd
  | _ => constructor

end Layout

/-- A value of the type. Where no value is expected there may be any. -/
structure Registry.Has (reg : Registry) (l : Layout) (t : Ty) (v : Value) : Prop where
  knows : l.Knows v
  fits : reg.Fits t v

namespace Registry.Has

variable {reg : Registry} {l l' : Layout} {s t : Ty} {v : Value}

theorem mono (h : reg.Has l t v) (hl : l ≤ l') : reg.Has l' t v := ⟨h.knows.mono hl, h.fits⟩

theorem of_type? (hv : l.Knows v) (ht : v.type? = some t) : reg.Has l t v := ⟨hv, .of_type? ht⟩

theorem default (l : Layout) (t : Ty) : reg.Has l t (Value.default t) := by
  refine ⟨?_, .default t⟩
  cases t with
  | int => exact .int 0
  | double => exact .double 0
  | bool => exact .bool false
  | _ => exact .null

variable (hr : reg.Rooted)

include hr

/-- A value of a type that is built in. -/
theorem type? (h : reg.Has l t v) (hv : t ≠ .void) (ho : t ≠ .object) (hu : ¬ t.IsUser) :
    v.type? = some t ∨ v = .null ∧ t.isReference = true := by
  have hc := h.fits hv
  unfold Registry.conforms at hc
  rw [if_neg ho] at hc
  cases hvt : v.type? with
  | some actual =>
    rw [hvt] at hc
    exact .inl (congrArg some (hr.eq_of_isSubtype hc hu))
  | none =>
    rw [hvt] at hc
    refine .inr ⟨?_, hc⟩
    cases v <;> simp_all [Value.type?]

theorem int (h : reg.Has l .int v) : ∃ n, v = .int n := by
  rcases h.type? hr (by simp) (by simp) (by simp [Ty.IsUser]) with ht | ⟨-, hf⟩
  · cases h.knows <;> simp_all [Value.type?]
  · cases hf

theorem double (h : reg.Has l .double v) : ∃ x, v = .double x := by
  rcases h.type? hr (by simp) (by simp) (by simp [Ty.IsUser]) with ht | ⟨-, hf⟩
  · cases h.knows <;> simp_all [Value.type?]
  · cases hf

theorem bool (h : reg.Has l .bool v) : ∃ b, v = .bool b := by
  rcases h.type? hr (by simp) (by simp) (by simp [Ty.IsUser]) with ht | ⟨-, hf⟩
  · cases h.knows <;> simp_all [Value.type?]
  · cases hf

theorem string (h : reg.Has l .string v) : (∃ s, v = .str s) ∨ v = .null := by
  rcases h.type? hr (by simp) (by simp) (by simp [Ty.IsUser]) with ht | ⟨hn, -⟩
  · cases h.knows <;> simp_all [Value.type?]
  · exact .inr hn

theorem array {elem : Ty} (h : reg.Has l (.array elem) v) :
    (∃ p, v = .array (.array elem) p ∧ l.arrays[p]? = some (.array elem)) ∨ v = .null := by
  rcases h.type? hr (by simp) (by simp) (by simp [Ty.IsUser]) with ht | ⟨hn, -⟩
  · obtain ⟨hk, -⟩ := h
    cases hk <;> simp_all [Value.type?]
  · exact .inr hn

theorem named {d : DefId} {args : List Ty} (h : reg.Has l (.named d args) v) (hd : d < firstUser) :
    (∃ p, v = .object (.named d args) p ∧ l.objects[p]? = some (.named d args)) ∨ v = .null := by
  have hu : ¬ (Ty.named d args).IsUser := by
    rintro ⟨_, _, h, hle⟩
    cases h
    exact absurd hd (Nat.not_lt.2 hle)
  rcases h.type? hr (by simp) (by simp) hu with ht | ⟨hn, -⟩
  · obtain ⟨hk, -⟩ := h
    cases hk <;> simp_all [Value.type?]
  · exact .inr hn

/-- A value of a type whose members are those of `string`. -/
theorem ofStringDef {args : List Ty} (h : reg.Has l t v)
    (ht : defOf? t = some (stringDef, args)) : (∃ s, v = .str s) ∨ v = .null := by
  cases t with
  | string => exact h.string hr
  | named d _ =>
    cases ht
    obtain ⟨p, rfl, -⟩ | rfl := h.named hr (by decide)
    · cases h.knows with
      | object _ hd => contradiction
    · exact .inr rfl
  | _ => cases ht

/-- A value of a type whose members are those of arrays. -/
theorem ofArrayDef {args : List Ty} (h : reg.Has l t v)
    (ht : defOf? t = some (arrayDef, args)) :
    (∃ p, v = .array (.array (args.getD 0 .object)) p ∧
      l.arrays[p]? = some (.array (args.getD 0 .object))) ∨ v = .null := by
  cases t with
  | array elem =>
    cases ht
    exact h.array hr
  | named d _ =>
    cases ht
    obtain ⟨p, rfl, -⟩ | rfl := h.named hr (by decide)
    · cases h.knows with
      | object _ hd => contradiction
    · exact .inr rfl
  | _ => cases ht

/-! ### Conversions -/

theorem subtype (h : reg.Has l s v) (hs : s ≠ .void) (hst : reg.isSubtype s t = true) :
    reg.Has l t v :=
  ⟨h.knows, h.fits.subtype hr.referenceBases hs hst⟩

/-- A value of a type is one of every type that this type converts to, unless that changes it. -/
theorem assignable (h : reg.Has l s v) (ha : reg.isAssignable s t = true)
    (hd : ¬ (s = .int ∧ t = .double)) : reg.Has l t v :=
  ⟨h.knows, h.fits.assignable hr.referenceBases ha hd⟩

end Registry.Has

/-! ### Contents -/

/-- The place of the definition. -/
def Collection.place : Collection → DefId
  | .list => 4
  | .stack => 5
  | .queue => 6
  | .set => 7

/-- What the items of an object of the type are; where this is `void` nothing is asked of them. -/
def Ty.itemType : Ty → Ty
  | .named d args =>
    if d = Collection.list.place ∨ d = Collection.stack.place ∨ d = Collection.queue.place then
      args.getD 0 .object
    else .void
  | _ => .void

/-- What is kept in the heap is as the layout says. -/
structure Heap.Typed (reg : Registry) (l : Layout) (h : Heap) : Prop where
  arrays_size : l.arrays.length = h.arrays.size
  objects_size : l.objects.length = h.objects.size
  elems {p : Nat} {elem : Ty} (hp : l.arrays[p]? = some (.array elem)) :
    ∀ v ∈ h.elems p, reg.Has l elem v
  items {p : Nat} {t : Ty} {payload : Payload} (hp : l.objects[p]? = some t)
    (hc : h.payload? p = some payload) : ∀ v ∈ Builtin.items payload, reg.Has l t.itemType v
  fields {p : Nat} {kind : String} {fields : Array Value}
    (hc : h.payload? p = some (.record kind fields)) : ∀ v ∈ fields, l.Knows v

/-- The contents may be kept at a place of an object of the type. -/
structure Payload.Typed (reg : Registry) (l : Layout) (t : Ty) (payload : Payload) : Prop where
  items : ∀ v ∈ Builtin.items payload, reg.Has l t.itemType v
  fields {kind : String} {fields : Array Value} (h : payload = .record kind fields) :
    ∀ v ∈ fields, l.Knows v

namespace Heap.Typed

variable {reg : Registry} {l : Layout} {h : Heap}

theorem payload {p : Nat} {t : Ty} {payload : Payload} (ht : h.Typed reg l)
    (hp : l.objects[p]? = some t) (hc : h.payload? p = some payload) : payload.Typed reg l t :=
  ⟨ht.items hp hc, fun he => ht.fields (he ▸ hc)⟩

theorem getElem?_concat {α : Type} {xs : List α} {x y : α} {p : Nat}
    (hp : (xs ++ [x])[p]? = some y) : p = xs.length ∧ x = y ∨ p ≠ xs.length ∧ xs[p]? = some y := by
  rw [List.getElem?_append] at hp
  split at hp
  · exact .inr ⟨by omega, hp⟩
  · obtain ⟨hlt, hy⟩ := List.getElem?_eq_some_iff.1 hp
    simp only [List.length_singleton] at hlt
    simp only [List.getElem_singleton] at hy
    exact .inl ⟨by omega, hy⟩

theorem concat_mono {α : Type} {xs : List α} {x y : α} {p : Nat} (hp : xs[p]? = some y) :
    (xs ++ [x])[p]? = some y := by
  obtain ⟨hlt, -⟩ := List.getElem?_eq_some_iff.1 hp
  rwa [List.getElem?_append_left hlt]

/-- A new array. -/
theorem allocArray {elem : Ty} {elems : Array Value} (ht : h.Typed reg l)
    (hv : ∀ v ∈ elems, reg.Has l elem v) :
    ∃ l', l ≤ l' ∧ (h.allocArray (.array elem) elems).2.Typed reg l' ∧
      reg.Has l' (.array elem) (h.allocArray (.array elem) elems).1 := by
  have hle : l ≤ { l with arrays := l.arrays ++ [.array elem] } :=
    ⟨fun _ _ => concat_mono, fun _ _ => id⟩
  have hnew : (l.arrays ++ [.array elem])[h.arrays.size]? = some (.array elem) := by
    rw [← ht.arrays_size, List.getElem?_concat_length]
  refine ⟨_, hle, ⟨?_, ht.objects_size, ?_, ?_, ?_⟩, .of_type? (.array hnew) rfl⟩
  · simp [Heap.allocArray, ht.arrays_size]
  · intro p elem' hp v hmem
    simp only [Heap.elems, Heap.allocArray, Array.getElem?_push, ← ht.arrays_size] at hmem
    rcases getElem?_concat hp with ⟨rfl, heq⟩ | ⟨hne, hp⟩
    · cases heq
      rw [if_pos rfl] at hmem
      exact (hv v hmem).mono hle
    · rw [if_neg hne] at hmem
      exact (ht.elems hp v hmem).mono hle
  · exact fun hp hc v hmem => (ht.items hp hc v hmem).mono hle
  · exact fun hc v hmem => (ht.fields hc v hmem).mono hle

/-- A new object. -/
theorem allocObject {d : DefId} {args : List Ty} {payload : Payload} (ht : h.Typed reg l)
    (hd : Registry.arrayDef < d) (hv : payload.Typed reg l (.named d args)) :
    ∃ l', l ≤ l' ∧ (h.allocObject (.named d args) payload).2.Typed reg l' ∧
      reg.Has l' (.named d args) (h.allocObject (.named d args) payload).1 := by
  have hle : l ≤ { l with objects := l.objects ++ [.named d args] } :=
    ⟨fun _ _ => id, fun _ _ => concat_mono⟩
  have hnew : (l.objects ++ [.named d args])[h.objects.size]? = some (.named d args) := by
    rw [← ht.objects_size, List.getElem?_concat_length]
  refine ⟨_, hle, ⟨ht.arrays_size, ?_, ?_, ?_, ?_⟩, .of_type? (.object hnew hd) rfl⟩
  · simp [Heap.allocObject, ht.objects_size]
  · exact fun hp v hmem => (ht.elems hp v hmem).mono hle
  · intro p t payload' hp hc v hmem
    simp only [Heap.payload?, Heap.allocObject, Array.getElem?_push, ← ht.objects_size] at hc
    rcases getElem?_concat hp with ⟨rfl, rfl⟩ | ⟨hne, hp⟩
    · rw [if_pos rfl] at hc
      cases hc
      exact (hv.items v hmem).mono hle
    · rw [if_neg hne] at hc
      exact (ht.items hp hc v hmem).mono hle
  · intro p kind fields hc v hmem
    simp only [Heap.payload?, Heap.allocObject, Array.getElem?_push] at hc
    split at hc
    · cases hc
      exact (hv.fields rfl v hmem).mono hle
    · exact (ht.fields hc v hmem).mono hle

theorem setElems {p : Nat} {elem : Ty} {elems : Array Value} (ht : h.Typed reg l)
    (hp : l.arrays[p]? = some (.array elem)) (hv : ∀ v ∈ elems, reg.Has l elem v) :
    (h.setElems p elems).Typed reg l := by
  refine ⟨by simp [Heap.setElems, ht.arrays_size], ht.objects_size, ?_, ht.items, ht.fields⟩
  intro p' elem' hp' v hmem
  by_cases heq : p = p'
  · subst heq
    cases hp.symm.trans hp'
    simp only [Heap.elems, Heap.setElems, Array.getElem?_setIfInBounds_self] at hmem
    split at hmem
    · exact hv v hmem
    · simp at hmem
  · have hsame : (h.setElems p elems).elems p' = h.elems p' := by
      simp [Heap.elems, Heap.setElems, Array.getElem?_setIfInBounds_ne heq]
    rw [hsame] at hmem
    exact ht.elems hp' v hmem

theorem setPayload {p : Nat} {t : Ty} {payload : Payload} (ht : h.Typed reg l)
    (hp : l.objects[p]? = some t) (hv : payload.Typed reg l t) :
    (h.setPayload p payload).Typed reg l := by
  have hcase {p' : Nat} {payload' : Payload}
      (hc : (h.setPayload p payload).payload? p' = some payload') :
      p = p' ∧ payload = payload' ∨ h.payload? p' = some payload' := by
    simp only [Heap.payload?, Heap.setPayload, Array.getElem?_setIfInBounds] at hc ⊢
    split at hc
    · split at hc
      · exact .inl ⟨‹_›, Option.some.inj hc⟩
      · cases hc
    · exact .inr hc
  refine ⟨ht.arrays_size, by simp [Heap.setPayload, ht.objects_size], ht.elems, ?_, ?_⟩
  · intro p' t' payload' hp' hc
    rcases hcase hc with ⟨rfl, rfl⟩ | hc
    · cases hp.symm.trans hp'
      exact hv.items
    · exact ht.items hp' hc
  · intro p' kind fields hc
    rcases hcase hc with ⟨-, rfl⟩ | hc
    · exact hv.fields rfl
    · exact ht.fields hc

end Heap.Typed

end TypedExpr
