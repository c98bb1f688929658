import TypedExpr.Ty
/-!
# The catalog

The numbers that names and types have got so far. They depend on the order of first mention alone
and show in messages and listings only.
-/

namespace TypedExpr

/-- Names and types with their numbers. The empty name and the primitives have theirs from the
start. -/
structure Catalog where
  names : Numbering String
  types : TypeTable

namespace Catalog

/-- The catalog in which nothing has been mentioned. -/
def initial : Catalog := ⟨Numbering.empty.note "", TypeTable.primitives⟩

instance : Inhabited Catalog := ⟨initial⟩

/-- Mention a name. -/
def noteName (c : Catalog) (name : String) : Catalog := { c with names := c.names.note name }

/-- Mention several names in order. -/
def noteNames (c : Catalog) (names : List String) : Catalog := names.foldl noteName c

/-- Mention a type. -/
def noteType (c : Catalog) (t : Ty) : Catalog := { c with types := (c.types.note t).2 }

/-- Mention several types in order. -/
def noteTypes (c : Catalog) (ts : List Ty) : Catalog := ts.foldl noteType c

/-- The number of a type. -/
def typeNumber (c : Catalog) (t : Ty) : TypeId := c.types.number t

/-- How a type is written in listings. -/
def typeLabel (c : Catalog) (t : Ty) : String := TypeId.label (c.typeNumber t)

/-- How a name is written in listings that do not look it up. -/
def nameLabel (c : Catalog) (name : String) : String := s!"Name({c.names.number name})"

end Catalog

end TypedExpr
