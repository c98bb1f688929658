/-!
# Type references

A type reference is a type as a source text writes it: a name with type arguments, or an array of
a type reference. It means a type only once a registry resolves its names.

* `TypeRef.text`: the one written form of a reference, `Pair<int, List<x>[]>`.
* `TypeRef.ofText`: the reference that a text is the written form of. Names may contain anything but
  the marks `<`, `>`, `,` and `[`.
-/

namespace TypedExpr

/-- A type as written. -/
inductive TypeRef where
  | named (name : String) (args : List TypeRef)
  | array (elem : TypeRef)
  deriving Inhabited, Repr

namespace TypeRef

mutual

/-- Equality of references, as a test. -/
def same : TypeRef → TypeRef → Bool
  | .named x as, .named y bs => x == y && sameAll as bs
  | .array s, .array t => s.same t
  | _, _ => false

/-- Equality of lists of references, as a test. -/
def sameAll : List TypeRef → List TypeRef → Bool
  | [], [] => true
  | s :: as, t :: bs => s.same t && sameAll as bs
  | _, _ => false

end

mutual

theorem same_self : ∀ t : TypeRef, t.same t = true
  | .array t => by simpa [same] using same_self t
  | .named _ as => by simpa [same] using sameAll_self as

theorem sameAll_self : ∀ ts : List TypeRef, sameAll ts ts = true
  | [] => rfl
  | t :: ts => by simp [sameAll, same_self t, sameAll_self ts]

end

mutual

theorem eq_of_same : ∀ s t : TypeRef, s.same t = true → s = t
  | .array s, .array t, h => by rw [eq_of_same s t (by simpa [same] using h)]
  | .named x as, .named y bs, h => by
    have h : x = y ∧ sameAll as bs = true := by simpa [same] using h
    rw [h.1, eq_of_sameAll as bs h.2]

theorem eq_of_sameAll : ∀ as bs : List TypeRef, sameAll as bs = true → as = bs
  | [], [], _ => rfl
  | s :: as, t :: bs, h => by
    have h : s.same t = true ∧ sameAll as bs = true := by simpa [sameAll] using h
    rw [eq_of_same s t h.1, eq_of_sameAll as bs h.2]

end

instance : DecidableEq TypeRef := fun s t =>
  decidable_of_iff (s.same t = true) ⟨eq_of_same s t, fun h => h ▸ same_self s⟩

mutual

/-- The written form. -/
def text : TypeRef → String
  | .named name [] => name
  | .named name (arg :: args) => s!"{name}<{text arg}{restText args}>"
  | .array elem => text elem ++ "[]"

/-- The arguments after the first, each after a comma. -/
def restText : List TypeRef → String
  | [] => ""
  | arg :: args => s!", {text arg}{restText args}"

end

mutual

/-- The names in a reference, from left to right. -/
def names : TypeRef → List String
  | .named name args => name :: allNames args
  | .array elem => names elem

/-- The names in several references. -/
def allNames : List TypeRef → List String
  | [] => []
  | ref :: refs => names ref ++ allNames refs

end

/-- The array reference over another, some levels up. -/
def arrays : Nat → TypeRef → TypeRef
  | 0, ref => ref
  | n + 1, ref => arrays n (.array ref)

/-! ### Reading the written form -/

/-- The character is not part of a name. -/
def isMark (c : Char) : Bool := c = '<' || c = '>' || c = ',' || c = '['

/-- How many pairs of square brackets come first, and what follows them. -/
def readPairs : List Char → Nat × List Char
  | '[' :: ']' :: cs =>
    let (n, rest) := readPairs cs
    (n + 1, rest)
  | cs => (0, cs)

mutual

/-- The reference that comes first, and what follows it. The number bounds the steps. -/
def read? : Nat → List Char → Option (TypeRef × List Char)
  | 0, _ => none
  | n + 1, cs => do
    let name := String.ofList (cs.takeWhile fun c => !isMark c)
    let (args, rest) ← match cs.dropWhile fun c => !isMark c with
      | '<' :: rest => readArgs? n rest
      | rest => some ([], rest)
    let (pairs, rest) := readPairs rest
    return (arrays pairs (.named name args), rest)

/-- Type arguments up to the closing bracket, and what follows it. -/
def readArgs? : Nat → List Char → Option (List TypeRef × List Char)
  | 0, _ => none
  | n + 1, cs => do
    match ← read? n cs with
    | (arg, '>' :: rest) => return ([arg], rest)
    | (arg, ',' :: rest) =>
      let (args, rest) ← readArgs? n (rest.dropWhile (· = ' '))
      return (arg :: args, rest)
    | _ => none

end

/-- The reference that a text is the written form of. A text in which the marks are out of place is
taken as a name. -/
def ofText (text : String) : TypeRef :=
  match read? (2 * text.length + 1) text.toList with
  | some (ref, []) => ref
  | _ => .named text []

end TypeRef

end TypedExpr
