import TypedExpr.Double.Text
import TypedExpr.Integer
import TypedExpr.Text.Literal
import TypedExpr.Token
/-!
# The pieces of a source text

A source text is cut into blanks, line ends, comments and tokens. Each piece is the longest that can
stand where it begins, so what a piece is follows from its first characters alone. Type names are
not yet told from other names.

* `piece`: what begins at a character, and how many characters follow it in the same piece.
* `Token.cut`: the tokens of a text, or the piece that is none.
-/

namespace TypedExpr

/-- A piece of a text that is no token. Lines are counted from one. -/
structure LexError where
  text : String
  line : Nat
  deriving DecidableEq, Repr, Inhabited

/-- The words in which a text is refused. -/
def LexError.message (e : LexError) : String :=
  s!"unrecognised input `{e.text}` on line {e.line}"

/-- What stands in a source text. -/
inductive Piece where
  | blank
  | lineEnd
  | token (kind : TokenKind)
  | junk
  deriving DecidableEq, Inhabited

namespace Piece

/-- A letter of the Latin alphabet or an underscore: it begins a word. -/
def isWordStart (c : Char) : Bool := c.isAlpha || c = '_'

/-- A character of a word. -/
def isWordPart (c : Char) : Bool := isWordStart c || c.isDigit

/-- A word: `true`, `false`, `new` or a name. -/
def word (text : String) : TokenKind := (TokenKind.ofSymbol? text).getD (.ident text [])

/-- The digits of an exponent, after its mark and sign. -/
def exponent (mark : List Char) (cs : List Char) : List Char :=
  let digits := cs.takeWhile Char.isDigit
  if digits.isEmpty then [] else mark ++ digits

/-- The characters of the exponent that follows a fraction, if any. -/
def exponentPart : List Char → List Char
  | 'e' :: '+' :: cs => exponent ['e', '+'] cs
  | 'e' :: '-' :: cs => exponent ['e', '-'] cs
  | 'e' :: cs => exponent ['e'] cs
  | 'E' :: '+' :: cs => exponent ['E', '+'] cs
  | 'E' :: '-' :: cs => exponent ['E', '-'] cs
  | 'E' :: cs => exponent ['E'] cs
  | _ => []

/-- The characters of the fraction that follows a whole number, and of its exponent, if any. -/
def fractionPart : List Char → List Char
  | '.' :: cs =>
    let digits := cs.takeWhile Char.isDigit
    if digits.isEmpty then []
    else '.' :: digits ++ exponentPart (cs.dropWhile Char.isDigit)
  | _ => []

/-- A number that begins with the digit `c`: a double if a fraction follows, else an integer, which
must fit. -/
def number (c : Char) (cs : List Char) : Piece × Nat :=
  let digits := cs.takeWhile Char.isDigit
  let fraction := fractionPart (cs.dropWhile Char.isDigit)
  if fraction.isEmpty then
    let n : Int := Double.digitsValue (c :: digits)
    (if Integer.Fits n then .token (.int (Int64.ofInt n)) else .junk, digits.length)
  else
    let value := Double.ofMagnitude? false (c :: digits ++ fraction)
    (.token (.double (value.getD 0)), digits.length + fraction.length)

/-- A string literal, of which the opening quote is already read. -/
def str (cs : List Char) : Piece × Nat :=
  let body := Text.literalBody cs
  if Text.isClosed cs then
    (.token (.str (String.ofList (Text.unescape body))), body.length + 1)
  else (.junk, body.length)

/-- The longest operator or punctuation that begins with `c`. -/
def symbol (c : Char) (cs : List Char) : Piece × Nat :=
  let candidates := [cs.take 2, cs.take 1, []]
  let found := candidates.findSome? fun more =>
    (TokenKind.ofSymbol? (String.ofList (c :: more))).map fun kind =>
      (Piece.token kind, more.length)
  found.getD (.junk, 0)

end Piece

/-- What begins at the character `c`, and how many of the characters after it belong to it. -/
def piece (c : Char) (cs : List Char) : Piece × Nat :=
  if c = '\n' then (.lineEnd, 0)
  else if c = ' ' ∨ c = '\t' ∨ c = '\r' then (.blank, 0)
  else if c = '/' ∧ cs.head? = some '/' then (.blank, (cs.takeWhile (· ≠ '\n')).length)
  else if Piece.isWordStart c then
    let more := cs.takeWhile Piece.isWordPart
    (.token (Piece.word (String.ofList (c :: more))), more.length)
  else if c.isDigit then Piece.number c cs
  else if c = '"' then Piece.str cs
  else Piece.symbol c cs

/-- How many bytes some characters take. -/
def byteLength (cs : List Char) : Nat := cs.foldr (fun c n => c.utf8Size + n) 0

@[simp] theorem byteLength_nil : byteLength [] = 0 := rfl

@[simp] theorem byteLength_cons (c : Char) (cs : List Char) :
    byteLength (c :: cs) = c.utf8Size + byteLength cs := rfl

@[simp] theorem byteLength_append (cs ds : List Char) :
    byteLength (cs ++ ds) = byteLength cs + byteLength ds := by
  induction cs with
  | nil => simp
  | cons c cs ih => simp only [List.cons_append, byteLength_cons, ih, Nat.add_assoc]

theorem byteLength_pos (c : Char) (cs : List Char) : 0 < byteLength (c :: cs) :=
  Nat.add_pos_left c.utf8Size_pos _

/-- The tokens in some characters, of which the first `skip` belong to the piece before. The
first piece begins at a byte offset and on a line. -/
def Token.cutFrom (offset line skip : Nat) : List Char → Except LexError (List Token)
  | [] => .ok []
  | c :: cs =>
    match skip with
    | skip + 1 => cutFrom offset line skip cs
    | 0 =>
      let (what, more) := piece c cs
      let stop := offset + byteLength (c :: cs.take more)
      match what with
      | .blank => cutFrom stop line more cs
      | .lineEnd => cutFrom stop (line + 1) more cs
      | .token kind => (cutFrom stop line more cs).map (⟨kind, ⟨offset, stop⟩, line⟩ :: ·)
      | .junk => .error ⟨String.ofList (c :: cs.take more), line⟩

/-- The tokens of a text. -/
def Token.cut (text : String) : Except LexError (List Token) := cutFrom 0 1 0 text.toList

theorem Token.cutFrom_skip (offset line skip : Nat) (cs : List Char) :
    cutFrom offset line skip cs = cutFrom offset line 0 (cs.drop skip) := by
  induction cs generalizing skip with
  | nil => simp [cutFrom]
  | cons c cs ih =>
    cases skip with
    | zero => rfl
    | succ skip => rw [cutFrom, ih skip, List.drop_succ_cons]

end TypedExpr
