import TypedExpr.Double.Text
import TypedExpr.Token
/-!
# Tokens in messages

How a token is named in a message: as it would be written, without type arguments and without
escapes.
-/

namespace TypedExpr

/-- The token as a message shows it. -/
def TokenKind.text (kind : TokenKind) : String :=
  match kind with
  | .int n => toString n
  | .double x => Double.display x
  | .str s => s!"\"{s}\""
  | .ident name _ => name
  | .type ref => ref.text
  | .eof => "end of input"
  | _ => kind.symbol?.getD ""

/-- The end of input as a listing shows it, with its place. -/
def TokenList.endText (ts : TokenList) : String :=
  s!"Eof @ {ts.last.span.text} (line {ts.last.line})"

end TypedExpr
