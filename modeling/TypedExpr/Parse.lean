import TypedExpr.Parse.Operand
import TypedExpr.Parse.Precedence
/-!
# Parsing

An expression is parsed in two steps: its tokens become items (`Parser.collect`), and the operators
among the items are applied by precedence (`Parser.applyOperators`). Expressions inside it are
parsed in the same way, one level deeper.

* `Parser.expression`: the expression at hand, if there is one, down to a number of levels.
* `Setting.parse`: all tokens as one expression.
* `Parsed`: the outcome, with the nodes that were built on the way.
-/

namespace TypedExpr

namespace Parser

/-- The expression at the token at hand, with at most so many levels of nesting. There is none if
the token ends an expression. The token at hand afterwards does. -/
def expression (s : Setting) : Nat → Parser (Option Expr)
  | 0 => do
    let token ← current s
    let message := s!"expression nests deeper than {s.options.maxDepth} levels"
    let diagnostic := (Diagnostic.error .nestingTooDeep).withMessage message
    refuse (diagnostic.withLabel token.span "nesting limit reached here") token.line
  | levels + 1 => fun p =>
    (do applyOperators s (← collect s (expression s levels)) : Parser (Option Expr)) p

/-- The expression at the token at hand. -/
def next (s : Setting) : Parser (Option Expr) := expression s s.options.maxDepth

/-- Fail unless all tokens have been passed. -/
def expectEnd (s : Setting) : Parser Unit := do
  if (← current s).kind = .eof then return () else unexpected s "end of input"

/-- All tokens as one expression. -/
def whole (s : Setting) : Parser (Option Expr) := do
  let e ← next s
  expectEnd s
  return e

end Parser

/-- The state in which a parser begins. -/
def ParseState.start (c : Catalog) : ParseState := ⟨0, c, #[], .ok .empty⟩

/-- A parsed expression, which may be empty, and all nodes built on the way. -/
structure Parsed where
  root : Option Expr
  nodes : Array Expr

instance : Inhabited Parsed := ⟨⟨none, #[]⟩⟩

/-- The type of the result; an empty expression yields nothing. -/
def Parsed.type (p : Parsed) : Ty := (p.root.map (·.type)).getD .void

/-- What one of several expressions comes to: the expression, the place and the token at which it
ends, and whether all tokens have been passed. -/
structure ParsedNext where
  root : Option Expr
  position : Nat
  token : Token
  finish : Except ParseError Unit

/-- Parse expressions one after the other, stepping over the token that ends each, up to the end of
input or the first refusal. The number bounds the expressions. -/
def Parser.sequence (s : Setting) : Nat → Parser (List ParsedNext × Option ParseError)
  | 0 => return ([], none)
  | n + 1 => fun p =>
    match (next s).run p with
    | (.error e, p) => (.ok ([], some e), p)
    | (.ok root, p) =>
      let token := s.tokens.get p.position
      let one : ParsedNext := ⟨root, p.position, token, ((expectEnd s).run p).1⟩
      if token.kind = .eof then (.ok ([one], none), p)
      else
        let more : Parser (List ParsedNext × Option ParseError) := do
          let _ ← advance s
          let (rest, e) ← sequence s n
          return (one :: rest, e)
        more p

/-- Parse all tokens as one expression. -/
def Setting.parse (s : Setting) (c : Catalog) : Except ParseError Parsed × Catalog :=
  let (result, p) := (Parser.whole s).run (.start c)
  (result.map fun root => ⟨root, p.nodes⟩, p.catalog)

end TypedExpr
