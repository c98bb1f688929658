import TypedExpr.Registry.Basic
import TypedExpr.Token.Lexeme
/-!
# Recognising type names

In the tokens of a text, a registered type name together with its type arguments and `[]` suffixes
becomes one token, and so does the name of a call together with its type arguments. In a list of
type arguments `>>` counts as two closing brackets: it is cut in two when the first of them is
reached.

* `Reading`: a step over the tokens at hand; a step that fails leaves the tokens as far as it came.
* `typeAt`, `typeArgsAt`: a type name and a list of type arguments.
* `TokenList.ofText`: the tokens of a text, with the names of types recognised.

An attempt to read a type name that fails does not mend the `>>` it has cut; an attempt to read the
type arguments of a call does.
-/

namespace TypedExpr

/-- The tokens at hand: those passed, the latest first, and those to come. Names that are looked at
are mentioned in the catalog. -/
structure Reading where
  passed : List Token
  rest : List Token
  catalog : Catalog

/-- A step over the tokens at hand. What a failed step has done stays done. -/
abbrev ReadM := OptionT (StateM Reading)

namespace Reading

/-- All tokens at hand, the ones passed included. -/
def all (r : Reading) : List Token := r.passed.reverse ++ r.rest

/-- The kind of the next token. -/
def next? (r : Reading) : Option TokenKind := r.rest.head?.map (·.kind)

/-- Pass the next token. -/
def pass (r : Reading) : Reading :=
  match r.rest with
  | t :: rest => { r with passed := t :: r.passed, rest := rest }
  | [] => r

/-- Pass several tokens. -/
def passAll : Nat → Reading → Reading
  | 0, r => r
  | n + 1, r => passAll n r.pass

/-- Cut the next token, a `>>`, so that only its second bracket is left. -/
def cutNext (r : Reading) : Reading :=
  match r.rest with
  | t :: rest =>
    let second : Token := ⟨.operator (.binary .gt), ⟨t.span.start + 1, t.span.stop⟩, t.line⟩
    { r with rest := second :: rest }
  | [] => r

/-- The place from the start of a token to the end of the last token passed. -/
def spanFrom (t : Token) (r : Reading) : Span :=
  match r.passed with
  | last :: _ => t.span.merge last.span
  | [] => t.span

end Reading

/-- How many pairs of square brackets the tokens begin with. -/
def squarePairs : List Token → Nat
  | s :: t :: rest =>
    if s.kind = .opening .square ∧ t.kind = .closing .square then squarePairs rest + 1 else 0
  | _ => 0

mutual

/-- A type name with its type arguments and `[]` suffixes. Only generic types take arguments. The
number bounds the tokens looked at. -/
def typeAt (reg : Registry) : Nat → ReadM TypeRef
  | 0 => failure
  | n + 1 => do
    match (← get).rest with
    | ⟨.ident name _, _, _⟩ :: _ =>
      modify fun r => { r with catalog := r.catalog.noteName name }
      if reg.isTypeName name then
        modify Reading.pass
        let isGeneric := (reg.genericArity? name).isSome
        let isOpened := decide ((← get).next? = some (.operator (.binary .lt)))
        let args ← if isGeneric && isOpened then typeArgsAt reg n else pure []
        let pairs := squarePairs (← get).rest
        modify (Reading.passAll (2 * pairs))
        return TypeRef.arrays pairs (.named name args)
      else failure
    | _ => failure

/-- Type arguments up to the closing bracket; the next token is the opening bracket or the comma in
front of the first of them. -/
def typeArgsAt (reg : Registry) : Nat → ReadM (List TypeRef)
  | 0 => failure
  | n + 1 => do
    modify Reading.pass
    let arg ← typeAt reg n
    match (← get).next? with
    | some .comma => return arg :: (← typeArgsAt reg n)
    | some (.operator (.binary .gt)) =>
      modify Reading.pass
      return [arg]
    | some (.operator (.binary .shr)) =>
      modify Reading.cutNext
      return [arg]
    | _ => failure

end

/-- Type arguments with a call after them. -/
def callArgsAt (reg : Registry) (n : Nat) : ReadM (List TypeRef) := do
  let args ← typeArgsAt reg n
  if (← get).next? = some (.opening .paren) then return args else failure

/-- The token that begins with the name `t`, the tokens after it, and the catalog. There are at most
`bound` tokens. -/
def nameToken (reg : Registry) (bound : Nat) (t : Token) (name : String) (rest : List Token)
    (c : Catalog) : Token × List Token × Catalog :=
  match typeAt reg bound ⟨[], t :: rest, c⟩ with
  | (some ref, r) => (⟨.type ref, r.spanFrom t, t.line⟩, r.rest, r.catalog)
  | (none, r) =>
    let rest := r.all.tail
    if (rest.head?.map (·.kind)) = some (.operator (.binary .lt)) then
      match callArgsAt reg bound ⟨[t], rest, r.catalog⟩ with
      | (some args, r) => (⟨.ident name args, r.spanFrom t, t.line⟩, r.rest, r.catalog)
      | (none, r) => (t, rest, r.catalog)
    else (t, rest, r.catalog)

/-- The tokens with type names recognised. There are at most as many tokens as the number says. -/
def recognise (reg : Registry) : Nat → List Token → Catalog → List Token × Catalog
  | 0, ts, c => (ts, c)
  | _, [], c => ([], c)
  | n + 1, t :: rest, c =>
    let (first, rest, c) :=
      match t.kind with
      | .ident name _ => nameToken reg (n + 1) t name rest c
      | .str s => (t, rest, c.noteName s)
      | _ => (t, rest, c)
    let (ts, c) := recognise reg n rest c
    (first :: ts, c)

/-- The tokens of a text, with the names in it mentioned. -/
def TokenList.ofText (reg : Registry) (text : String) (c : Catalog) :
    Except LexError (TokenList × Catalog) :=
  (Token.cut text).map fun ts =>
    let (ts, c) := recognise reg ts.length ts c
    (.ofTokens ts.toArray, c)

/-- The type reference that is all there is before the end of input. -/
def TokenList.typeRef? (ts : TokenList) : Option TypeRef :=
  match ts.init.toList with
  | [⟨.type ref, _, _⟩] => some ref
  | _ => none

end TypedExpr
