/-!
# String literals

A literal stands between double quotes on one line. A backslash and the character after it stand for
one character: a line end, a tab or a carriage return for `n`, `t` and `r`, and otherwise the
character itself.

* `literalBody`, `isClosed`: how far a literal reaches, and whether it ends with a quote.
* `unescape`: what it stands for.
* `escape`: a text written so that it can stand in a literal. It is read back (`unescape_escape`),
  and the literal ends where it should (`literalBody_escape`, `isClosed_escape`).
-/

namespace TypedExpr.Text

/-- The characters of a literal up to its closing quote. If it is not closed, these are all the
complete characters and escape pairs of the line. -/
def literalBody : List Char → List Char
  | [] => []
  | '"' :: _ => []
  | '\n' :: _ => []
  | ['\\'] => []
  | '\\' :: '\n' :: _ => []
  | '\\' :: c :: cs => '\\' :: c :: literalBody cs
  | c :: cs => c :: literalBody cs

/-- The literal ends with a quote. -/
def isClosed : List Char → Bool
  | [] => false
  | '"' :: _ => true
  | '\n' :: _ => false
  | ['\\'] => false
  | '\\' :: '\n' :: _ => false
  | '\\' :: _ :: cs => isClosed cs
  | _ :: cs => isClosed cs

/-- The character that an escape pair stands for, by its second character. -/
def escaped (c : Char) : Char :=
  match c with
  | 'n' => '\n'
  | 't' => '\t'
  | 'r' => '\r'
  | c => c

/-- What the characters of a literal stand for. -/
def unescape : List Char → List Char
  | [] => []
  | '\\' :: c :: cs => escaped c :: unescape cs
  | c :: cs => c :: unescape cs

/-- A character as a literal holds it. -/
def escapeChar (c : Char) : List Char :=
  match c with
  | '\\' => ['\\', '\\']
  | '"' => ['\\', '"']
  | '\n' => ['\\', 'n']
  | c => [c]

/-- A text as a literal holds it. -/
def escape (cs : List Char) : List Char := cs.flatMap escapeChar

theorem unescape_escapeChar (c : Char) (cs : List Char) :
    unescape (escapeChar c ++ cs) = c :: unescape cs := by
  unfold escapeChar
  split <;> simp_all [unescape, escaped]

theorem unescape_escape (cs : List Char) : unescape (escape cs) = cs := by
  induction cs with
  | nil => rfl
  | cons c cs ih =>
    have h : escape (c :: cs) = escapeChar c ++ escape cs := rfl
    rw [h, unescape_escapeChar, ih]

theorem literalBody_escapeChar (c : Char) (cs : List Char) :
    literalBody (escapeChar c ++ cs) = escapeChar c ++ literalBody cs := by
  unfold escapeChar
  split <;> simp_all [literalBody]

theorem isClosed_escapeChar (c : Char) (cs : List Char) :
    isClosed (escapeChar c ++ cs) = isClosed cs := by
  unfold escapeChar
  split <;> simp_all [isClosed]

theorem literalBody_escape (cs rest : List Char) :
    literalBody (escape cs ++ '"' :: rest) = escape cs := by
  induction cs with
  | nil => rfl
  | cons c cs ih =>
    have h : escape (c :: cs) = escapeChar c ++ escape cs := rfl
    rw [h, List.append_assoc, literalBody_escapeChar, ih]

theorem isClosed_escape (cs rest : List Char) : isClosed (escape cs ++ '"' :: rest) = true := by
  induction cs with
  | nil => rfl
  | cons c cs ih =>
    have h : escape (c :: cs) = escapeChar c ++ escape cs := rfl
    rw [h, List.append_assoc, isClosed_escapeChar, ih]

end TypedExpr.Text
