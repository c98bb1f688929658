import TypedExpr.Diagnostic.Basic
import TypedExpr.Token
/-!
# Causes of refusal

The diagnostics that more than one place of the parser gives, each as a function of what it is
about.
-/

namespace TypedExpr.Diagnostic

/-- A type was expected where another was found. -/
def typeMismatch (span : Span) (expected found context : String) : Diagnostic :=
  (error .typeMismatch).withMessage s!"type mismatch: expected `{expected}`, found `{found}`"
    |>.withLabel span context

/-- A token stands where another was expected. -/
def unexpectedToken (span : Span) (expected found : String) : Diagnostic :=
  (error .unexpectedToken).withMessage
      s!"unexpected token: expected {expected}, found `{found}`"
    |>.withLabel span s!"expected {expected}"

/-- An expression was expected. -/
def expectedExpression (span : Span) (found : String) : Diagnostic :=
  (error .expectedExpression).withMessage s!"expected expression, found `{found}`"
    |>.withLabel span "expected expression here"

/-- An operator lacks an operand on one side. -/
def missingOperand (span : Span) (operator side : String) : Diagnostic :=
  (error .expectedExpression).withMessage s!"missing {side} operand for `{operator}`"
    |>.withLabel span s!"`{operator}` needs a {side} operand"

/-- The bracket that closes `delimiter`; another character closes itself. -/
def closingOf (delimiter : Char) : Char :=
  match [Bracket.paren, .square, .brace].find? (·.opening == delimiter) with
  | some b => b.closing
  | none => delimiter

/-- A bracket is not closed where it should be. -/
def unclosedDelimiter (opened closed : Span) (delimiter : Char) : Diagnostic :=
  (error .unclosedDelimiter).withMessage s!"unclosed delimiter `{delimiter}`"
    |>.withLabel closed s!"expected `{closingOf delimiter}`"
    |>.withSecondaryLabel opened "unclosed delimiter opened here"

/-- A name means nothing. -/
def unknownIdentifier (span : Span) (name : String) : Diagnostic :=
  (error .unknownIdentifier).withMessage s!"unknown identifier `{name}`"
    |>.withLabel span "not found in this scope"

/-- A type has no member of a name. -/
def unknownMember (span : Span) (type member : String) : Diagnostic :=
  (error .unknownMember).withMessage s!"type `{type}` has no member `{member}`"
    |>.withLabel span "unknown member"

/-- An operator means nothing for two operand types. -/
def unsupportedOperator (span : Span) (operator left right : String) : Diagnostic :=
  (error .unsupportedOperator).withMessage
      s!"operator `{operator}` cannot be applied to `{left}` and `{right}`"
    |>.withLabel span "no built-in or registered operator"

/-- What is to be changed cannot be. -/
def notModifiable (span : Span) (operator : String) : Diagnostic :=
  (error .notModifiable).withMessage s!"operand of `{operator}` is not a modifiable value"
    |>.withLabel span "cannot be assigned to"

/-- The overloads that could be meant. -/
def candidateNotes (candidates : List String) : List String :=
  candidates.map fun c => s!"candidate: {c}"

/-- Several overloads match equally well. -/
def ambiguousOverload (span : Span) (member : String) (candidates : List String) : Diagnostic :=
  (error .ambiguousOverload).withMessage s!"call to `{member}` is ambiguous"
    |>.withLabel span "multiple overloads match equally well"
    |>.withNotes (candidateNotes candidates)

end TypedExpr.Diagnostic
