/-!
# Error codes

Every refusal of an expression has a code. The first digit says what was wrong: the arrangement of
the tokens (1), the types and names (2), or the program itself (9).
-/

namespace TypedExpr

/-- Why an expression is refused. -/
inductive ErrorCode where
  | unexpectedToken
  | expectedExpression
  | unclosedDelimiter
  | expectedMember
  | expectedType
  | notModifiable
  | missingOperator
  | tooManyElements
  | missingArguments
  | nestingTooDeep
  | typeMismatch
  | unknownType
  | unknownIdentifier
  | noOverload
  | ambiguousOverload
  | unknownMember
  | noIndexer
  | unsupportedOperator
  | invalidCast
  | noInsertion
  | noValue
  | internal
  deriving DecidableEq, Repr, Inhabited

namespace ErrorCode

/-- All codes. -/
def all : List ErrorCode :=
  [.unexpectedToken, .expectedExpression, .unclosedDelimiter, .expectedMember, .expectedType,
    .notModifiable, .missingOperator, .tooManyElements, .missingArguments, .nestingTooDeep,
    .typeMismatch, .unknownType, .unknownIdentifier, .noOverload, .ambiguousOverload,
    .unknownMember, .noIndexer, .unsupportedOperator, .invalidCast, .noInsertion, .noValue,
    .internal]

/-- How the code is written. -/
def text : ErrorCode → String
  | .unexpectedToken => "E1001"
  | .expectedExpression => "E1002"
  | .unclosedDelimiter => "E1003"
  | .expectedMember => "E1004"
  | .expectedType => "E1005"
  | .notModifiable => "E1006"
  | .missingOperator => "E1007"
  | .tooManyElements => "E1008"
  | .missingArguments => "E1009"
  | .nestingTooDeep => "E1010"
  | .typeMismatch => "E2001"
  | .unknownType => "E2002"
  | .unknownIdentifier => "E2003"
  | .noOverload => "E2004"
  | .ambiguousOverload => "E2005"
  | .unknownMember => "E2006"
  | .noIndexer => "E2007"
  | .unsupportedOperator => "E2008"
  | .invalidCast => "E2009"
  | .noInsertion => "E2010"
  | .noValue => "E2011"
  | .internal => "E9001"

/-- The code written `text`. -/
def ofText? (text : String) : Option ErrorCode := all.find? (·.text == text)

/-- The tokens are arranged wrongly. -/
def isSyntaxError : ErrorCode → Bool
  | .unexpectedToken | .expectedExpression | .unclosedDelimiter | .expectedMember | .expectedType
  | .notModifiable | .missingOperator | .tooManyElements | .missingArguments | .nestingTooDeep =>
    true
  | _ => false

/-- The types or the names are wrong. -/
def isTypeError : ErrorCode → Bool
  | .typeMismatch | .unknownType | .unknownIdentifier | .noOverload | .ambiguousOverload
  | .unknownMember | .noIndexer | .unsupportedOperator | .invalidCast | .noInsertion | .noValue =>
    true
  | _ => false

theorem ofText?_text (code : ErrorCode) : ofText? code.text = some code := by
  cases code <;> rfl

end ErrorCode

end TypedExpr
