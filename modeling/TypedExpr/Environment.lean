import TypedExpr.NameMap
import TypedExpr.World
/-!
# Variables

A variable has a declared type and a current value. An expression reads and writes a variable at the
type it was compiled with, which must be the declared one.

* `Environment`: the variables by name.
* `Context`: what an evaluation can reach, an environment or no variables at all.
* `Environment.binding_eq_ok_iff`, `Environment.write_eq_ok_iff`: which variables can be read and
  stored to.
-/

namespace TypedExpr

/-- A declared variable. -/
structure Binding where
  type : Ty
  value : Value
  deriving DecidableEq, Inhabited

/-- The variables by name. -/
abbrev Environment := NameMap Binding

namespace Environment

/-- The variable of a name, which must have been declared at that type. Types are shown by
number. -/
def binding (env : Environment) (c : Catalog) (name : String) (type : Ty) :
    Except Fault Binding :=
  match env.get? name with
  | none => .error (.undefinedVariable name)
  | some b =>
    if b.type = type then .ok b
    else
      let shown := c.typeLabel b.type
      .error (.typeMismatch (c.typeLabel type) s!"{shown} for `{name}`")

/-- The value of a variable. -/
def read (env : Environment) (c : Catalog) (name : String) (type : Ty) : Except Fault Value :=
  (env.binding c name type).map (·.value)

/-- Store to a variable. -/
def write (env : Environment) (c : Catalog) (name : String) (type : Ty) (v : Value) :
    Except Fault Environment :=
  (env.binding c name type).map fun b => env.insert name { b with value := v }

/-- The variables in the order of their names. -/
def sorted (env : Environment) : List (String × Binding) :=
  env.entries.mergeSort fun a b => a.1 ≤ b.1

theorem binding_eq_ok_iff {env : Environment} {c : Catalog} {name : String} {type : Ty}
    {b : Binding} :
    env.binding c name type = .ok b ↔ env.get? name = some b ∧ b.type = type := by
  unfold binding
  split
  · simp_all
  · rename_i b' h
    split <;> rename_i hb <;>
      simp only [h, reduceCtorEq, Except.ok.injEq, Option.some.injEq, false_iff, not_and]
    · exact ⟨fun e => ⟨e, e ▸ hb⟩, And.left⟩
    · exact fun e ht => hb (e ▸ ht)

theorem write_eq_ok_iff {env env' : Environment} {c : Catalog} {name : String} {type : Ty}
    {v : Value} :
    env.write c name type v = .ok env' ↔
      (env.get? name).map (·.type) = some type ∧ env.insert name ⟨type, v⟩ = env' := by
  unfold write
  cases hb : env.binding c name type with
  | error fault =>
    constructor
    · intro h
      cases h
    · rintro ⟨htype, -⟩
      obtain ⟨b, hget, ht⟩ := Option.map_eq_some_iff.1 htype
      rw [binding_eq_ok_iff.2 ⟨hget, ht⟩] at hb
      cases hb
  | ok b =>
    obtain ⟨hget, rfl⟩ := binding_eq_ok_iff.1 hb
    simp [hget, Except.map]

end Environment

/-- The variables an evaluation can reach. -/
inductive Context where
  | empty
  | of (env : Environment)

namespace Context

/-- The value of a variable. Where there are no variables a name is shown by its number. -/
def read (context : Context) (c : Catalog) (name : String) (type : Ty) : Except Fault Value :=
  match context with
  | .empty => .error (.undefinedVariable (c.nameLabel name))
  | .of env => env.read c name type

/-- Store to a variable. -/
def write (context : Context) (c : Catalog) (name : String) (type : Ty) (v : Value) :
    Except Fault Context :=
  match context with
  | .empty => .error (.undefinedVariable (c.nameLabel name))
  | .of env => (env.write c name type v).map .of

end Context

end TypedExpr
