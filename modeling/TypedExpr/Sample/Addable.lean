import TypedExpr.Registry.Basic
/-!
# A sample type: numbers and things

`T` has nothing but an overload by which a number and an object of it add up.
-/

namespace TypedExpr

/-- A registry in which a double and an object of a type `T` add up to an integer. -/
def Registry.addable : Registry :=
  { primitive with
    definitions := #[.bare "string" 0, .bare "[]" 1,
      { Definition.bare "T" 0 with
        operators :=
          [(.binary .add, ⟨0, [.fixed .double, .fixed (.named 2 [])], .fixed .int, 0⟩)] }]
    callables := #[⟨"T.op_Addition", .quiet fun _ => pure (.int 7)⟩] }

end TypedExpr
