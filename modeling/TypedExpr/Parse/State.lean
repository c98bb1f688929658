import TypedExpr.Diagnostic.Causes
import TypedExpr.Expr.Table
import TypedExpr.Parse.Item
import TypedExpr.Scope
import TypedExpr.Token.Text
/-!
# The state of a parser

A parser goes forward over a list of tokens and builds numbered nodes, which are kept in a table. It
never passes the end of input. Nothing is undone when it fails. A node that cannot be kept ends the
run; the state then has the reason in place of the table, and what follows has no meaning.

* `Setting`: what a parser is given and does not change.
* `Parser`: a step of parsing.
* `Parser.push`: a new node.
-/

namespace TypedExpr

/-- What a parser is given. -/
structure Setting where
  registry : Registry
  scope : Scope
  options : ParseOptions
  tokens : TokenList

/-- The place of the token at hand, the numbers handed out, the nodes built so far, and the table in
which they are kept. -/
structure ParseState where
  position : Nat
  catalog : Catalog
  nodes : Array Expr
  table : Except Overflow NodeTable

/-- The state with one more node. -/
def ParseState.build (p : ParseState) (e : Expr) : ParseState :=
  { p with
    nodes := p.nodes.push e
    table := do (← p.table).add (e.form.map Expr.number) }

@[simp] theorem ParseState.build_nodes (p : ParseState) (e : Expr) :
    (p.build e).nodes = p.nodes.push e := rfl

/-- A step of parsing. -/
abbrev Parser := ExceptT ParseError (StateM ParseState)

namespace Parser

/-- Fail with a diagnostic about a token on a line. -/
def refuse {α : Type} (diagnostic : Diagnostic) (line : Nat) : Parser α :=
  throw (.onLine diagnostic line)

/-- Mention a name. -/
def noteName (name : String) : Parser Unit :=
  modify fun p => { p with catalog := p.catalog.noteName name }

/-- Mention types in order. -/
def noteTypes (ts : List Ty) : Parser Unit :=
  modify fun p => { p with catalog := p.catalog.noteTypes ts }

/-- A new node, with the next number. Its lists are put into the pool before it. -/
def push (form : Form Expr) (span : Span) (type : Ty) : Parser Expr :=
  modifyGet fun p =>
    let e := Expr.node p.nodes.size span type form
    (e, p.build e)

/-! ### Tokens -/

/-- The token at hand. -/
def current (s : Setting) : Parser Token := return s.tokens.get (← get).position

/-- The kind of the token some places on. -/
def kindAfter (s : Setting) (n : Nat) : Parser TokenKind :=
  return (s.tokens.get ((← get).position + n)).kind

/-- The token at hand is of that kind. -/
def isAt (s : Setting) (kind : TokenKind) : Parser Bool := return (← current s).kind = kind

/-- Pass the token at hand, unless it is the end of input. -/
def advance (s : Setting) : Parser Token := do
  let token ← current s
  if token.kind ≠ .eof then modify fun p => { p with position := p.position + 1 }
  return token

/-- Pass the token at hand if it is of that kind. -/
def eat (s : Setting) (kind : TokenKind) : Parser Bool := do
  if ← isAt s kind then
    let _ ← advance s
    return true
  else return false

/-- Fail because the token at hand is not what was expected. -/
def unexpected {α : Type} (s : Setting) (expected : String) : Parser α := do
  let token ← current s
  refuse (.unexpectedToken token.span expected token.kind.text) token.line

/-- Pass an opening bracket, which must be at hand. -/
def expectOpening (s : Setting) (bracket : Bracket) : Parser Token := do
  if ← isAt s (.opening bracket) then advance s else unexpected s s!"`{bracket.opening}`"

/-- Pass the closing bracket that belongs to an opening one, or report that one. -/
def expectClosing (s : Setting) (opened : Token) (bracket : Bracket) : Parser Token := do
  if ← isAt s (.closing bracket) then advance s
  else
    let token ← current s
    refuse (.unclosedDelimiter opened.span token.span bracket.opening) token.line

/-! ### Types and members -/

/-- Fail because an expression yields no value. -/
def noValue {α : Type} (span : Span) (line : Nat) : Parser α :=
  let diagnostic := (Diagnostic.error .noValue).withMessage "expression does not produce a value"
  refuse (diagnostic.withLabel span "this has type `void`") line

/-- Fail unless an expression yields a value. -/
def requireValue (e : Expr) (line : Nat) : Parser Unit :=
  if e.type = .void then noValue e.span line else pure ()

/-- The type that a reference means. -/
def resolveType (s : Setting) (ref : TypeRef) (token : Token) : Parser Ty := do
  noteTypes (s.registry.mentionedByType ref)
  match s.registry.resolveType ref with
  | .ok t => return t
  | .error e =>
    let shown := ref.text
    let message := match e with
      | .wrongTypeArity expected found =>
        s!"type `{shown}` takes {expected} type argument(s) but {found} were given"
      | _ => s!"unknown type `{shown}`"
    let diagnostic := (Diagnostic.error .unknownType).withMessage message
    refuse (diagnostic.withLabel token.span "not a known type") token.line

/-- The types that several references mean. -/
def resolveTypes (s : Setting) (refs : List TypeRef) (token : Token) : Parser (List Ty) :=
  refs.mapM fun ref => resolveType s ref token

/-- Why a member, a function or a constructor is not found. The owner is the type searched; there
is none for global functions. -/
def resolveFailure (reg : Registry) (e : ResolveError) (span : Span) (owner : Option Ty)
    (member : String) : Diagnostic :=
  match e with
  | .notFound =>
    match owner with
    | some t => .unknownMember span (reg.typeName t) member
    | none => .unknownIdentifier span member
  | .noMatch candidates =>
    let diagnostic := (Diagnostic.error .noOverload).withMessage
      s!"no overload of `{member}` accepts these arguments"
    diagnostic.withLabel span "no matching overload"
      |>.withNotes (Diagnostic.candidateNotes candidates)
  | .ambiguous candidates => .ambiguousOverload span member candidates
  | .wrongTypeArity expected found =>
    let diagnostic := (Diagnostic.error .unknownType).withMessage
      s!"`{member}` takes {expected} type argument(s) but {found} were given"
    diagnostic.withLabel span "wrong number of type arguments"
  | .unknownType =>
    let diagnostic := (Diagnostic.error .unknownType).withMessage s!"unknown type in `{member}`"
    diagnostic.withLabel span "not a known type"

/-- The result of a look-up, or its failure about a token. -/
def found {α : Type} (s : Setting) (result : Except ResolveError α) (token : Token)
    (owner : Option Ty) (member : String) : Parser α :=
  match result with
  | .ok a => return a
  | .error e => refuse (resolveFailure s.registry e token.span owner member) token.line

end Parser

end TypedExpr
