import TypedExpr.Eval
/-!
# Evaluation of listings

The rows of a listing name their parts by number, so a row can be part of several others, and even
of itself. A row is evaluated when its value or its place is asked for and not before; so an
evaluation may come back to a row it is in the midst of, and still end.

* `Row.denote`: what a row of a listing denotes, its parts being reached down to a depth.
-/

namespace TypedExpr

namespace Denoted

/-- The same, found out only when it is evaluated. -/
def later (span : Span) (type : Ty) (d : Unit → Denoted) : Denoted where
  span := span
  type := type
  value := ExceptT.mk fun s => (d ()).value.run s
  place := ExceptT.mk fun s => (d ()).place.run s

/-- What stands for a row that is not reached: its evaluation fails. -/
def outOfReach : Denoted where
  span := .nowhere
  type := .void
  value := throw (Fault.host "listing" "row out of reach").unplaced
  place := throw (Fault.host "listing" "row out of reach").unplaced

end Denoted

namespace Row

/-- What the row of a number denotes, with so many rows at most on the way from it to a part. -/
def denote (reg : Registry) (rows : Array Row) : Nat → Nat → Denoted
  | 0, _ => .outOfReach
  | depth + 1, i =>
    match rows[i]? with
    | none => .outOfReach
    | some row =>
      .ofForm reg row.span row.type <| row.form.map fun part =>
        match rows[part]? with
        | none => .outOfReach
        | some r => .later r.span r.type fun _ => denote reg rows depth part

/-- How far an evaluation goes down in a listing. -/
def reach : Nat := 1000000

end Row

end TypedExpr
