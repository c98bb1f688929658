import TypedExpr.Operator
import TypedExpr.Span
import TypedExpr.TypeRef
/-!
# Tokens

The input of the parser: a list of tokens that ends with the end of input. Type names are
recognised before parsing, so a whole type reference is one token, and so is the name of a generic
call with its type arguments.

* `TokenKind.isTerminator`: the tokens that end an expression and are left to whoever asked for it.
* `TokenList`: the last token is `TokenKind.eof` (`TokenList.ofTokens` adds one if need be).
-/

namespace TypedExpr

/-- The three pairs of brackets. -/
inductive Bracket where
  | paren
  | square
  | brace
  deriving DecidableEq, Repr, Inhabited

/-- The opening bracket. -/
def Bracket.opening : Bracket → Char
  | .paren => '('
  | .square => '['
  | .brace => '\x7b'

/-- The closing bracket. -/
def Bracket.closing : Bracket → Char
  | .paren => ')'
  | .square => ']'
  | .brace => '\x7d'

/-- What a token is. -/
inductive TokenKind where
  | int (value : Int64)
  | double (value : Float)
  | str (text : String)
  | bool (value : Bool)
  | ident (name : String) (typeArgs : List TypeRef)
  | type (ref : TypeRef)
  | new
  | operator (op : Operator)
  | dot
  | opening (bracket : Bracket)
  | closing (bracket : Bracket)
  | comma
  | semicolon
  | colon
  | eof
  deriving DecidableEq, Inhabited

namespace TokenKind

/-- The token ends an expression without being part of it. -/
def isTerminator : TokenKind → Bool
  | .semicolon | .comma | .closing _ | .colon | .eof => true
  | _ => false

/-- A number, a text, `true` or `false`. -/
def isLiteral : TokenKind → Bool
  | .int _ | .double _ | .str _ | .bool _ => true
  | _ => false

/-- The text of a token that is always written in one way. -/
def symbol? : TokenKind → Option String
  | .bool true => some "true"
  | .bool false => some "false"
  | .new => some "new"
  | .operator op => some op.symbol
  | .dot => some "."
  | .opening b => some b.opening.toString
  | .closing b => some b.closing.toString
  | .comma => some ","
  | .semicolon => some ";"
  | .colon => some ":"
  | .int _ | .double _ | .str _ | .ident _ _ | .type _ | .eof => none

/-- The names and texts in a token, from left to right. -/
def names : TokenKind → List String
  | .str text => [text]
  | .ident name typeArgs => name :: TypeRef.allNames typeArgs
  | .type ref => ref.names
  | _ => []

/-- The keywords and operators that are always written in one way, in the order of the listing of
tokens: literals, `new`, operators, assignments, punctuation. -/
def symbols : List TokenKind :=
  [.bool true, .bool false, .new] ++
  ([.add, .sub, .mul, .pow, .div, .mod, .shl, .shr, .lt, .gt, .le, .ge, .eq, .ne, .bitAnd, .bitOr,
    .bitXor, .and, .or] : List BinaryOp).map (.operator ∘ .binary) ++
  [.operator .bang, .operator .tilde, .operator (.step .increment), .operator (.step .decrement),
    .operator (.assign .plain)] ++
  ([.add, .sub, .mul, .div, .mod, .bitAnd, .bitOr, .bitXor, .shl, .shr] : List BinaryOp).map
    (.operator ∘ .assign ∘ .compound) ++
  [.operator .question, .dot, .opening .paren, .closing .paren, .opening .square,
    .closing .square, .opening .brace, .closing .brace, .comma, .semicolon, .colon]

/-- The token that is always written as `text`. -/
def ofSymbol? (text : String) : Option TokenKind := symbols.find? (·.symbol? == some text)

end TokenKind

/-- A token and where it stands. Lines are counted from one. -/
structure Token where
  kind : TokenKind
  span : Span
  line : Nat
  deriving DecidableEq, Inhabited

/-- A token that stands nowhere. -/
def Token.unplaced (kind : TokenKind) : Token := ⟨kind, Span.nowhere, 1⟩

/-- Tokens up to and including the end of input: `init` and then `last`, which is an `eof`. -/
structure TokenList where
  init : Array Token
  last : Token
  last_eof : last.kind = .eof

namespace TokenList

/-- The end of input that follows `tokens`: where the last of them ends, on its line. -/
def eofAfter (tokens : Array Token) : Token :=
  match tokens.back? with
  | some t => ⟨.eof, ⟨t.span.stop, t.span.stop⟩, t.line⟩
  | none => ⟨.eof, Span.nowhere, 1⟩

theorem eofAfter_kind (tokens : Array Token) : (eofAfter tokens).kind = .eof := by
  unfold eofAfter; split <;> rfl

/-- The tokens as a list of tokens, with an end of input added unless they have one. -/
def ofTokens (tokens : Array Token) : TokenList :=
  match tokens.back? with
  | some t =>
    if h : t.kind = .eof then ⟨tokens.pop, t, h⟩
    else ⟨tokens, eofAfter tokens, eofAfter_kind _⟩
  | none => ⟨tokens, eofAfter tokens, eofAfter_kind _⟩

/-- All tokens, the end of input included. -/
def toArray (ts : TokenList) : Array Token := ts.init.push ts.last

/-- How many tokens there are, the end of input included. -/
def size (ts : TokenList) : Nat := ts.init.size + 1

/-- The token at a place; past the end, the end of input. -/
def get (ts : TokenList) (i : Nat) : Token := ts.init[i]?.getD ts.last

end TokenList

end TypedExpr
