import TypedExpr.Diagnostic.Code
import TypedExpr.Span
/-!
# Diagnostics

A diagnostic says why an expression is refused: a code, a message, labels that point into the
source text, notes and suggestions. A refusal (`ParseError`) is a diagnostic together with a line.

* `Diagnostic.primarySpan?`: what the diagnostic points at, the span of its first primary label.
* `ParseError.onLine`: the line is also recorded as a note.
-/

namespace TypedExpr

/-- A place in the source text with a remark. -/
structure Label where
  span : Span
  message : String
  isPrimary : Bool
  deriving DecidableEq, Repr, Inhabited

/-- Why an expression is refused. -/
structure Diagnostic where
  code : ErrorCode
  message : String
  labels : List Label
  notes : List String
  suggestions : List String
  deriving DecidableEq, Repr, Inhabited

namespace Diagnostic

/-- A diagnostic that only has a code. -/
def error (code : ErrorCode) : Diagnostic := ⟨code, "", [], [], []⟩

/-- The same with a message. -/
def withMessage (d : Diagnostic) (message : String) : Diagnostic := { d with message := message }

/-- The same with one more primary label. -/
def withLabel (d : Diagnostic) (span : Span) (message : String) : Diagnostic :=
  { d with labels := d.labels ++ [⟨span, message, true⟩] }

/-- The same with one more label for context. -/
def withSecondaryLabel (d : Diagnostic) (span : Span) (message : String) : Diagnostic :=
  { d with labels := d.labels ++ [⟨span, message, false⟩] }

/-- The same with one more note. -/
def withNote (d : Diagnostic) (note : String) : Diagnostic := { d with notes := d.notes ++ [note] }

/-- The same with more notes. -/
def withNotes (d : Diagnostic) (notes : List String) : Diagnostic :=
  { d with notes := d.notes ++ notes }

/-- The same with one more suggestion. -/
def withSuggestion (d : Diagnostic) (suggestion : String) : Diagnostic :=
  { d with suggestions := d.suggestions ++ [suggestion] }

/-- What the diagnostic points at. -/
def primarySpan? (d : Diagnostic) : Option Span := (d.labels.find? (·.isPrimary)).map (·.span)

/-- The whole diagnostic: a head line, and a line for each label, note and suggestion. -/
def text (d : Diagnostic) : String :=
  let head := s!"error [{d.code.text}]: {d.message}"
  let labels := d.labels.map fun l =>
    let marker := if l.isPrimary then "-->" else "   "
    s!"\n  {marker} {l.span.text}: {l.message}"
  let notes := d.notes.map fun n => s!"\n  = note: {n}"
  let suggestions := d.suggestions.map fun s => s!"\n  = help: {s}"
  head ++ String.join (labels ++ notes ++ suggestions)

end Diagnostic

/-- A refusal: a diagnostic and the line of the token it is about. -/
structure ParseError where
  diagnostic : Diagnostic
  line : Nat
  deriving DecidableEq, Repr, Inhabited

namespace ParseError

/-- A diagnostic about a token on a line, which is recorded as a note too. -/
def onLine (diagnostic : Diagnostic) (line : Nat) : ParseError :=
  ⟨diagnostic.withNote s!"on line {line}", line⟩

/-- The code of the diagnostic. -/
def code (e : ParseError) : ErrorCode := e.diagnostic.code

/-- What the refusal points at. -/
def span (e : ParseError) : Span := e.diagnostic.primarySpan?.getD Span.nowhere

end ParseError

end TypedExpr
