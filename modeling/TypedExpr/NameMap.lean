/-!
# Maps from names

A map with names as keys: at most one entry for a name, in the order in which the names came in.

* `NameMap.get?_insert`, `NameMap.get?_erase`: what an insertion and a removal change.
-/

namespace TypedExpr

/-- A map from names. -/
structure NameMap (β : Type) where
  entries : List (String × β)

namespace NameMap

variable {β : Type}

/-- No entries. -/
def empty : NameMap β := ⟨[]⟩

instance : Inhabited (NameMap β) := ⟨empty⟩

/-- The first value given for a name. -/
def find (name : String) : List (String × β) → Option β
  | [] => none
  | (n, v) :: rest => if name = n then some v else find name rest

/-- The entry of a name. -/
def get? (m : NameMap β) (name : String) : Option β := find name m.entries

/-- The name has an entry. -/
def contains (m : NameMap β) (name : String) : Bool := (m.get? name).isSome

/-- How many names have an entry. -/
def size (m : NameMap β) : Nat := m.entries.length

/-- Entries with the one of `name` replaced, or one added at the end. -/
def insertInto (name : String) (value : β) : List (String × β) → List (String × β)
  | [] => [(name, value)]
  | (n, v) :: rest =>
    if name = n then (n, value) :: rest else (n, v) :: insertInto name value rest

/-- Give a name an entry, in place of the one it has. -/
def insert (m : NameMap β) (name : String) (value : β) : NameMap β :=
  ⟨insertInto name value m.entries⟩

/-- Take the entry of a name away. -/
def erase (m : NameMap β) (name : String) : NameMap β :=
  ⟨m.entries.filter fun e => e.1 ≠ name⟩

theorem find_insertInto (name x : String) (value : β) (es : List (String × β)) :
    find x (insertInto name value es) = if x = name then some value else find x es := by
  induction es with
  | nil => rfl
  | cons e rest ih =>
    obtain ⟨n, v⟩ := e
    simp only [insertInto]
    split <;> simp only [find] <;> grind

theorem find_filter (name x : String) (es : List (String × β)) :
    find x (es.filter fun e => e.1 ≠ name) = if x = name then none else find x es := by
  induction es with
  | nil => simp [find]
  | cons e rest ih =>
    obtain ⟨n, v⟩ := e
    by_cases hn : n = name <;> simp only [List.filter, find] <;> grind [find]

@[simp] theorem get?_insert (m : NameMap β) (name x : String) (value : β) :
    (m.insert name value).get? x = if x = name then some value else m.get? x :=
  find_insertInto name x value m.entries

@[simp] theorem get?_erase (m : NameMap β) (name x : String) :
    (m.erase name).get? x = if x = name then none else m.get? x :=
  find_filter name x m.entries

end NameMap

end TypedExpr
