import TypedExpr.Parse.Node
/-!
# From tokens to items

What binds tighter than any operator is put together while tokens are turned into items: literals,
names, groups, members, calls and `new`. An index waits for its container, because a member or a
step may still come before it is known what is indexed; a cast waits for its operand; a conditional
is followed by its two branches.

A list of items is kept with the latest item first while it grows. The step that parses an
expression inside brackets or in a branch is given as `sub`.

* `Parser.collect`: the items of the tokens up to one that ends the expression.
-/

namespace TypedExpr

namespace Parser

variable (s : Setting) (sub : Parser (Option Expr))

/-! ### Expressions inside expressions -/

/-- An expression that is not empty. -/
def requiredExpression : Parser Expr := do
  let token ← current s
  match ← sub with
  | some e => return e
  | none => refuse (.expectedExpression token.span token.kind.text) token.line

/-- An expression that yields a value. -/
def valueExpression : Parser Expr := do
  let token ← current s
  let e ← requiredExpression s sub
  requireValue e token.line
  return e

/-- The arguments of a call after the opening bracket or a comma, and the closing bracket. The
number bounds the tokens looked at. -/
def restOfArguments (opened : Token) : Nat → Parser (List Expr × Token)
  | 0 => return ([], opened)
  | n + 1 => do
    let arg ← valueExpression s sub
    if ← eat s .comma then
      let (args, closed) ← restOfArguments opened n
      return (arg :: args, closed)
    else
      let closed ← expectClosing s opened .paren
      return ([arg], closed)

/-- The arguments of a call and the closing bracket. -/
def arguments : Parser (List Expr × Token) := do
  let opened ← expectOpening s .paren
  if ← isAt s (.closing .paren) then
    let closed ← advance s
    return ([], closed)
  else restOfArguments s sub opened s.tokens.size

/-- The items of an initializer after the opening brace or a comma, and the closing brace; the last
item may be followed by a comma. The number bounds the tokens looked at. -/
def restOfInitializer (opened : Token) : Nat → Parser (List Expr × Token)
  | 0 => return ([], opened)
  | n + 1 => do
    if ← isAt s (.closing .brace) then
      let closed ← advance s
      return ([], closed)
    else
      let item ← valueExpression s sub
      if ← eat s .comma then
        let (items, closed) ← restOfInitializer opened n
        return (item :: items, closed)
      else
        let closed ← expectClosing s opened .brace
        return ([item], closed)

/-- The items of an initializer and the closing brace. -/
def initializer : Parser (List Expr × Token) := do
  let opened ← expectOpening s .brace
  restOfInitializer s sub opened s.tokens.size

/-! ### Calls and members -/

/-- A call of a global function whose name is passed. -/
def globalCall (name : String) (typeArgs : List TypeRef) (token : Token) : Parser Item := do
  if !(← isAt s (.opening .paren)) then
    let message := s!"function `{name}` must be called with an argument list"
    let diagnostic := (Diagnostic.error .missingArguments).withMessage message
    refuse (diagnostic.withLabel token.span "missing `(...)`") token.line
  else
    let typeArgs ← resolveTypes s typeArgs token
    let (args, closed) ← arguments s sub
    let types := args.map (·.type)
    noteTypes (s.registry.mentionedByFunction name typeArgs types)
    let call ← found s (s.registry.resolveFunction name typeArgs types) token none name
    let args ← convertAll s "argument" token.line args call.params
    let span := token.span.merge closed.span
    let e ← push (.call call.callable args) span call.ret
    return ⟨.value e, span, token.line⟩

/-- What a member is taken of: a value, or a type for a static member. -/
structure Owner where
  item : Item
  receiver : Option Expr
  type : Ty

/-- A call of a method whose name is passed. -/
def methodCall (owner : Owner) (name : String) (typeArgs : List TypeRef) (token : Token) :
    Parser Item := do
  let typeArgs ← resolveTypes s typeArgs token
  let (args, closed) ← arguments s sub
  let types := args.map (·.type)
  let isStatic := owner.receiver.isNone
  noteTypes (s.registry.mentionedByMethod owner.type name typeArgs types isStatic)
  let result := s.registry.resolveMethod owner.type name typeArgs types isStatic
  let call ← found s result token owner.type name
  let args ← convertAll s "argument" token.line args call.params
  let span := owner.item.span.merge closed.span
  let form := match owner.receiver with
    | some receiver => .method receiver call.callable args
    | none => .call call.callable args
  let e ← push form span call.ret
  return owner.item.withValue e span

/-- A property whose name is passed. If there is a method of that name, calling it is suggested. -/
def property (owner : Owner) (name : String) (token : Token) : Parser Item := do
  let isStatic := owner.receiver.isNone
  noteTypes (s.registry.mentionedByProperty owner.type name isStatic)
  match s.registry.resolveProperty owner.type name isStatic with
  | .ok p =>
    let span := owner.item.span.merge token.span
    let e ← push (.property owner.receiver p.get p.set) span p.type
    return owner.item.withValue e span
  | .error e =>
    let diagnostic := resolveFailure s.registry e token.span owner.type name
    let error := ParseError.onLine diagnostic token.line
    if s.registry.hasMethod owner.type name isStatic then
      let suggestion := s!"`{name}` is a method; call it with `{name}()`"
      throw { error with diagnostic := error.diagnostic.withSuggestion suggestion }
    else throw error

/-- Attach the indexes that the items end with to their container. -/
def attachIndexes (items : List Item) : Parser (List Item) :=
  let brackets := (items.takeWhile (·.isIndex)).reverse
  match brackets, items.dropWhile (·.isIndex) with
  | [], rest => return rest
  | bracket :: _, [] => refuse (.expectedExpression bracket.span "[") bracket.line
  | brackets, container :: rest => do
    let attach (container bracket : Item) : Parser Item :=
      match bracket.kind with
      | .index i => buildIndex s container i bracket
      | _ => return container
    return (← brackets.foldlM attach container) :: rest

/-- What the last item gives members to, and the items below it. -/
def ownerOf (dot : Token) (items : List Item) : Parser (Owner × List Item) :=
  match items with
  | [] => refuse (.expectedExpression dot.span ".") dot.line
  | last :: below =>
    match last.kind with
    | .value e => do
      requireValue e last.line
      return (⟨last, some e, e.type⟩, below)
    | .typeName type => return (⟨last, none, type⟩, below)
    | _ => refuse (.expectedExpression dot.span ".") dot.line

/-- The member whose name is at hand. -/
def member (owner : Owner) : Parser Item := do
  let token ← current s
  match token.kind with
  | .ident name typeArgs =>
    let _ ← advance s
    if ← isAt s (.opening .paren) then methodCall s sub owner name typeArgs token
    else property s owner name token
  | kind =>
    let message := s!"expected member name after `.`, found `{kind.text}`"
    let diagnostic := (Diagnostic.error .expectedMember).withMessage message
    refuse (diagnostic.withLabel token.span "expected a member name") token.line

/-- A member of the last item. -/
def collectMember (items : List Item) : Parser (List Item) := do
  let dot ← advance s
  let items ← attachIndexes s items
  let (owner, below) ← ownerOf dot items
  return (← member s sub owner) :: below

/-! ### Construction -/

/-- The items of a new array and where they end. Without an initializer there are none, and then
there must be a length, which ends at `stop`. -/
def arrayItems (count : Option Expr) (stop : Span) : Parser (List Expr × Span) := do
  if ← isAt s (.opening .brace) then
    let (items, closed) ← initializer s sub
    return (items, closed.span)
  else if count.isNone then unexpected s "`\x7b` or an array length"
  else return ([], stop)

/-- Fail if there are more items than a length that is a literal. -/
def checkLength (count : Option Expr) (items : Nat) (span : Span) (line : Nat) : Parser Unit :=
  match count with
  | some (.node _ _ _ (.int n)) =>
    if 0 < items ∧ n.toInt < items then
      let message := s!"array initializer has {items} elements but the array length is {n}"
      let diagnostic := (Diagnostic.error .tooManyElements).withMessage message
      refuse (diagnostic.withLabel span "too many elements") line
    else return ()
  | _ => return ()

/-- A new array, of which the type and the length, if any, are passed. It ends at `stop` unless an
initializer follows. -/
def newArray (start : Token) (elem : Ty) (count : Option Expr) (stop : Span) : Parser Item := do
  let (items, stop) ← arrayItems s sub count stop
  let items ← items.mapM fun item => convert s item elem "array element" start.line
  let span := start.span.merge stop
  checkLength count items.length span start.line
  noteTypes [.array elem]
  let e ← push (.newArray elem count items) span (.array elem)
  return ⟨.value e, span, start.line⟩

/-- The arguments of a constructor and where they end. They may be left out in front of an
initializer. -/
def constructorArguments (typeToken : Token) : Parser (List Expr × Span) := do
  if ← isAt s (.opening .paren) then
    let (args, closed) ← arguments s sub
    return (args, closed.span)
  else if ← isAt s (.opening .brace) then return ([], typeToken.span)
  else unexpected s "`(`, `[` or `\x7b`"

/-- The constructor that takes arguments of some types. -/
def constructorFor (typeToken : Token) (type : Ty) (types : List Ty) : Parser ResolvedCall := do
  let name := s.registry.typeName type
  noteTypes (s.registry.mentionedByConstructor type types)
  match s.registry.resolveConstructor type types with
  | .error .notFound =>
    let message := s!"type `{name}` cannot be constructed"
    let diagnostic := (Diagnostic.error .noOverload).withMessage message
    refuse (diagnostic.withLabel typeToken.span "no constructor") typeToken.line
  | result => found s result typeToken type name

/-- The items that are inserted into a new object, how, and where they end. Without an initializer
there are none. -/
def insertedItems (start : Token) (type : Ty) (stop : Span) :
    Parser (List Expr × Option CallableId × Span) := do
  if ← isAt s (.opening .brace) then
    noteTypes (s.registry.mentionedByInsertion type)
    match s.registry.resolveInsertion type with
    | .error _ =>
      let brace ← current s
      let name := s.registry.typeName type
      let message := s!"type `{name}` does not support collection initializers"
      let diagnostic := (Diagnostic.error .noInsertion).withMessage message
      refuse (diagnostic.withLabel brace.span "initializer not allowed here") brace.line
    | .ok insertion =>
      let (items, closed) ← initializer s sub
      let items ← items.mapM fun item =>
        convert s item insertion.elem "collection element" start.line
      return (items, if items.isEmpty then none else some insertion.callable, closed.span)
  else return ([], none, stop)

/-- A new object, of which the type is passed. -/
def newObject (start typeToken : Token) (type : Ty) : Parser Item := do
  let (args, stop) ← constructorArguments s sub typeToken
  let call ← constructorFor s typeToken type (args.map (·.type))
  let args ← convertAll s "argument" typeToken.line args call.params
  let (items, insert, stop) ← insertedItems s sub start type stop
  let span := start.span.merge stop
  let e ← push (.new call.callable args items insert) span type
  return ⟨.value e, span, start.line⟩

/-- The length of a new array after the opening bracket, if there is one. -/
def arrayCount : Parser (Option Expr) := do
  if ← isAt s (.closing .square) then return none
  else
    let first ← current s
    let count ← valueExpression s sub
    return some (← convert s count .int "array length" first.line)

/-- A `new` expression. -/
def construct : Parser Item := do
  let start ← advance s
  let typeToken ← current s
  match typeToken.kind with
  | .type (.array elem) =>
    let _ ← advance s
    let elem ← resolveType s elem typeToken
    newArray s sub start elem none typeToken.span
  | .type ref =>
    let _ ← advance s
    let type ← resolveType s ref typeToken
    if ← isAt s (.opening .square) then
      let opened ← advance s
      let count ← arrayCount s sub
      let closed ← expectClosing s opened .square
      newArray s sub start type count closed.span
    else newObject s sub start typeToken type
  | kind =>
    let message := s!"expected a type after `new`, found `{kind.text}`"
    let diagnostic := (Diagnostic.error .expectedType).withMessage message
    refuse (diagnostic.withLabel typeToken.span "expected a type") typeToken.line

/-! ### Items -/

/-- A name: a constant, a variable, a function that is called, or a type. -/
def collectName (name : String) (typeArgs : List TypeRef) (token : Token) : Parser Item := do
  match s.scope.get? name with
  | some (.constant c) =>
    match c with
    | .str text => noteName text
    | _ => pure ()
    let e ← push c.form token.span c.type
    return ⟨.value e, token.span, token.line⟩
  | some (.var type) =>
    let e ← push (.var name) token.span type
    return ⟨.value e, token.span, token.line⟩
  | some .function => globalCall s sub name typeArgs token
  | none =>
    if s.registry.hasFunction name then globalCall s sub name typeArgs token
    else if s.registry.isTypeName name then
      let type ← resolveType s (.named name typeArgs) token
      return ⟨.typeName type, token.span, token.line⟩
    else refuse (.unknownIdentifier token.span name) token.line

/-- A group, or a type in parentheses, which is a cast. -/
def collectGroup (items : List Item) : Parser (List Item) := do
  let opened ← advance s
  match ← kindAfter s 0, ← kindAfter s 1 with
  | .type ref, .closing .paren =>
    let typeToken ← advance s
    let type ← resolveType s ref typeToken
    let closed ← advance s
    return ⟨.cast type, opened.span.merge closed.span, opened.line⟩ :: items
  | _, _ =>
    let e ← requiredExpression s sub
    let closed ← expectClosing s opened .paren
    return ⟨.value e, opened.span.merge closed.span, opened.line⟩ :: items

/-- The last item is a value or another index, so an index may follow. -/
def canBeIndexed : List Item → Bool
  | last :: _ => last.value?.isSome || last.isIndex
  | [] => false

/-- An index after the last item. -/
def collectIndex (items : List Item) : Parser (List Item) := do
  let opened ← current s
  if !canBeIndexed items then refuse (.expectedExpression opened.span "[") opened.line
  else
    let _ ← advance s
    let i ← valueExpression s sub
    let closed ← expectClosing s opened .square
    return ⟨.index i, opened.span.merge closed.span, opened.line⟩ :: items

/-- A `?` and the two branches after it. -/
def collectTernary (items : List Item) : Parser (List Item) := do
  let question ← advance s
  let yes ← valueExpression s sub
  if !(← eat s .colon) then
    let token ← current s
    let message := s!"expected `:` in conditional expression, found `{token.kind.text}`"
    let diagnostic := (Diagnostic.error .unexpectedToken).withMessage message
      |>.withLabel token.span "expected `:`"
      |>.withSecondaryLabel question.span "conditional starts here"
    refuse diagnostic token.line
  else
    let no ← valueExpression s sub
    let branch (e : Expr) : Item := ⟨.value e, e.span, question.line⟩
    return branch no :: branch yes ::
      ⟨.operator .question, question.span, question.line⟩ :: items

/-- A literal. -/
def collectLiteral (form : Form Expr) (type : Ty) (items : List Item) : Parser (List Item) := do
  let token ← advance s
  let e ← push form token.span type
  return ⟨.value e, token.span, token.line⟩ :: items

/-- What begins at the token at hand, which does not end the expression. -/
def collectNext (items : List Item) : Parser (List Item) := do
  let token ← current s
  match token.kind with
  | .opening .paren => collectGroup s sub items
  | .opening .square => collectIndex s sub items
  | .dot => collectMember s sub items
  | .operator .question => collectTernary s sub items
  | .new => return (← construct s sub) :: items
  | .int n => collectLiteral s (.int n) .int items
  | .double x => collectLiteral s (.double x) .double items
  | .str text => collectLiteral s (.str text) .string items
  | .bool b => collectLiteral s (.bool b) .bool items
  | .ident name typeArgs =>
    let _ ← advance s
    return (← collectName s sub name typeArgs token) :: items
  | .type ref =>
    let _ ← advance s
    let type ← resolveType s ref token
    return ⟨.typeName type, token.span, token.line⟩ :: items
  | .operator op =>
    let _ ← advance s
    return ⟨.operator op, token.span, token.line⟩ :: items
  | _ => unexpected s "an operand or operator"

/-- The items up to a token that ends the expression, after those already there. The number bounds
the tokens looked at. -/
def collectFrom : Nat → List Item → Parser (List Item)
  | 0, items => return items.reverse
  | n + 1, items => do
    if (← current s).kind.isTerminator then return items.reverse
    else collectFrom n (← collectNext s sub items)

/-- The items up to a token that ends the expression. -/
def collect : Parser (List Item) := collectFrom s sub s.tokens.size []

end Parser

end TypedExpr
