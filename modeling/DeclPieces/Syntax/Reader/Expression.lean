import DeclPieces.Syntax.Reader.Type

/-! Expressions and patterns. Operators are read in order, without their binding strength: what a
name stands for depends on the order of names only. -/
namespace DeclPieces.Syntax.Reader

variable (go : Recur)

def node1 (label : Label) : List Part → Reader Part
  | first :: rest => return .node label first rest
  | [] => fail

/-- An expression after a mark, such as `= e`. -/
def markedExpression (mark : Text) : Reader (List Part) := do
  let m ← token mark
  return [m, (← go (.expression false)).as .value]

def objectPatternMember : Reader (List Part) := do
  let rest : Reader Part := do
    let dots ← token "..."
    return .node .restPattern dots [← go .pattern]
  let defaulted : Reader Part := do
    let key ← name .shorthandPattern
    let eq ← token "="
    let value ← go (.expression false)
    return .node .objectAssignmentPattern (key.as .left) [eq, value.as .right]
  let pair : Reader Part := do
    let key ← go .propertyName
    let colon ← token ":"
    let target ← go .pattern
    let target ← do
      if ← is "=" then
        let eq ← token "="
        let value ← go (.expression false)
        pure (Part.node .assignmentPattern (target.as .left) [eq, value.as .right])
      else pure target
    return .node .pairPattern key [colon, target.as .value]
  return [← rest <|> pair <|> defaulted <|> name .shorthandPattern]

def arrayPatternMember : Reader (List Part) := do
  let target ← go .pattern
  if ← is "=" then
    let eq ← token "="
    let value ← go (.expression false)
    return [.node .assignmentPattern (target.as .left) [eq, value.as .right]]
  else return [target]

/-- What a parameter or a variable is bound to. -/
def pattern : Reader Part := do
  let t ← peek
  if t.is "\x7b" then bracketed "\x7b" "\x7d" .objectPattern (commaList (objectPatternMember go))
  else if t.is "[" then bracketed "[" "]" .arrayPattern (commaList (arrayPatternMember go))
  else if t.is "..." then
    let dots ← token "..."
    return .node .restPattern dots [← go .pattern]
  else name .identifier

/-- The body of an arrow function. -/
def arrowBody : Reader (List Part) := do
  let arrow ← token "=>"
  let body ← if ← is "\x7b" then go .block else go (.expression false)
  return [arrow, body]

/-- An arrow function. One that is `plain` states no result type. -/
def arrowFunction (plain : Bool) : Reader Part := do
  let async ← do
    if (← is "async") && !(← isAt 1 "=>") then maybeToken "async" else pure []
  let t ← peek
  if t.is "(" || t.is "<" then
    if t.is "(" && !(← groupThen "=>") then guardThat (!plain && (← groupThen ":"))
    let head ← signature go
    node1 .expression (async ++ head ++ (← arrowBody go))
  else
    guardThat (← isAt 1 "=>")
    let param ← name .identifier
    node1 .expression (async ++ [param.as .parameter] ++ (← arrowBody go))

def functionExpression : Reader Part := do
  let async ← maybeToken "async"
  let mark ← token "function"
  let star ← maybeToken "*"
  let name ← maybe (name .identifier)
  let head ← signature go
  let body ← go .block
  node1 .expression (async ++ [mark] ++ star ++ name ++ head ++ [body])

def decorator : Reader Part := do
  let mark ← token "@"
  return .node .clause mark [← go .reference]

/-- The parts of a node, to be made parts of another. -/
def spliced (p : Part) : List Part := (p.comments ++ p.tree.children).map (⟨[], ·⟩)

/-- A class used as a value. -/
def classExpression : Reader Part := do
  let decorators ← many do return [← decorator go]
  let mark ← token "class"
  let t ← peek
  let name ← if t.is "extends" || t.is "implements" then pure [] else maybe (name .typeIdentifier)
  let tail ← go .classTail
  node1 .classExpression (decorators ++ [mark] ++ name.map (·.as .name) ++ spliced tail)

def arguments : Reader Part := bracketed "(" ")" .clause <| commaList do
  if ← is "..." then
    let dots ← token "..."
    return [.node .expression dots [← go (.expression false)]]
  return [← go (.expression false)]

/-- A member of an object: spread, method, pair or shorthand. -/
def objectMember : Reader (List Part) := do
  let spread : Reader Part := do
    let dots ← token "..."
    return .node .expression dots [← go (.expression false)]
  let method : Reader Part := do
    let marks ← modifiers
    let name ← go .propertyName
    let head ← signature go
    node1 .clause (marks ++ [name] ++ head ++ [← go .block])
  let pair : Reader Part := do
    let key ← go .propertyName
    let colon ← token ":"
    return .node .clause key [colon, ← go (.expression false)]
  let defaulted : Reader Part := do
    let key ← name .shorthandProperty
    let eq ← token "="
    return .node .clause key [eq, ← go (.expression false)]
  return [← spread <|> pair <|> method <|> defaulted <|> name .shorthandProperty]

def arrayMember : Reader (List Part) := do
  if ← is "..." then
    let dots ← token "..."
    return [.node .expression dots [← go (.expression false)]]
  return [← go (.expression false)]

/-- `[…]` and `{…}`, as a pattern where a value is assigned to them. -/
def bracketExpression : Reader Part := do
  if ← groupThen "=" then go .pattern
  else if ← is "[" then bracketed "[" "]" .expression (commaList (arrayMember go))
  else bracketed "\x7b" "\x7d" .expression (commaList (objectMember go))

/-- `(e)`, where a type may be stated for a single expression. -/
def parenthesized : Reader Part := bracketed "(" ")" .expression do
  let inner ← go .sequence
  return inner :: (← maybe (typing go))

/-- Can type arguments end before this token, so that no call follows them? -/
def endsInstance (t : Token) : Bool :=
  t.afterNewline || t.kind = .endOfText || t.is ")" || t.is "]" || t.is "\x7d" || t.is "," || t.is ";" || t.is ":"
    || t.is "." || t.is "?." || t.is "==" || t.is "===" || t.is "!=" || t.is "!==" || t.is "&&" || t.is "||"
    || t.is "??" || t.is "?" || t.is "\x7b"

/-- The members, indexes and calls taken from an operand. Type arguments are left alone unless `typed`. -/
def suffix (typed calls : Bool) (p : Part) : Reader Part := do
  let t ← peek
  if t.is "." then
    let dot ← token "."
    let member ← word .propertyIdentifier <|> kind .privateName .privateIdentifier
    return .node .memberExpression (p.as .object) [dot, member]
  else if t.is "?." then
    let dot ← token "?."
    if ← is "(" then return .node .expression p [dot, ← arguments go]
    else if ← is "[" then
      let open_ ← token "["
      let index ← go .sequence
      return .node .expression p [dot, open_, index, ← token "]"]
    else
      let member ← word .propertyIdentifier <|> kind .privateName .privateIdentifier
      return .node .memberExpression (p.as .object) [dot, member]
  else if t.is "[" then
    let open_ ← token "["
    let index ← go .sequence
    return .node .expression p [open_, index, ← token "]"]
  else if t.is "(" && calls then return .node .expression p [← arguments go]
  else if t.text = [96] && t.kind = .punctuation then
    return .node .expression p [← template .expression (go .sequence)]
  else if t.is "!" && !t.afterNewline then return .node .expression p [← token "!"]
  else if t.is "<" && typed && calls then
    let args ← go .typeArguments
    let next ← peek
    if next.is "(" then return .node .expression p [args, ← arguments go]
    else if next.text = [96] then return .node .expression p [args, ← template .expression (go .sequence)]
    else
      guardThat (endsInstance next)
      return .node .expression p [args]
  else fail

/-- `new C<T>(…)`, or `new.target`. -/
def newExpression (primary : Reader Part) : Reader Part := do
  let mark ← token "new"
  if ← is "." then
    let dot ← token "."
    return .node .expression mark [dot, ← word .propertyIdentifier]
  let callee ← primary
  let callee ← grow (suffix go false false) callee
  let types ← maybe (go .typeArguments)
  let args ← maybe (arguments go)
  return .node .expression mark ([callee] ++ types ++ args)

def typeAssertion : Reader Part := do
  let types ← go .typeArguments
  return .node .expression types [← go .operand]

/-- An operand without suffixes; `fuel` bounds how often `new` may be nested. -/
def primary : Nat → Reader Part
  | 0 => fail
  | fuel + 1 => do
    let t ← peek
    match t.kind with
    | .number => kind .number .literal
    | .regex => kind .regex .literal
    | .string => kind .string .string
    | .privateName => kind .privateName .privateIdentifier
    | .punctuation =>
      if t.text = [96] then template .expression (go .sequence)
      else if t.is "(" then parenthesized go
      else if t.is "[" || t.is "\x7b" then bracketExpression go
      else if t.is "<" then typeAssertion go
      else if t.is "@" then classExpression go
      else fail
    | .word =>
      if t.is "this" then word .this
      else if t.is "super" then word .super
      else if t.is "null" || t.is "true" || t.is "false" || t.is "undefined" then word .literal
      else if t.is "function" || (t.is "async" && (← isAt 1 "function")) then functionExpression go
      else if t.is "class" then classExpression go
      else if t.is "new" then newExpression go (primary fuel)
      else if t.is "import" then word .token
      else name .identifier
    | _ => fail

/-- An operand with its suffixes. -/
def reference : Reader Part := fun ts =>
  (do grow (suffix go false true) (← primary go ts.length)) ts

def prefixWords : List Text := ["typeof", "void", "delete", "await"]

def prefixMarks : List Text := ["!", "~", "-", "+", "++", "--"]

/-- Can an expression start with this token? -/
def startsExpression (t : Token) : Bool :=
  match t.kind with
  | .word => !(t.is "in" || t.is "of" || t.is "instanceof" || t.is "as" || t.is "satisfies")
  | .punctuation => t.is "(" || t.is "[" || t.is "\x7b" || t.is "<" || t.is "@" || t.text = [96]
      || prefixMarks.contains t.text
  | .endOfText => false
  | _ => true

/-- An operand with everything attached to it. -/
def operand : Reader Part := do
  let t ← peek
  if t.kind = .punctuation && prefixMarks.contains t.text then
    let mark ← kind .punctuation .token
    return .node .expression mark [← go .operand]
  else if t.kind = .word && prefixWords.contains t.text && (!t.is "await" || startsExpression (← peekAt 1)) then
    let mark ← word .token
    return .node .expression mark [← go .operand]
  else
    let p ← fun ts => (do grow (suffix go true true) (← primary go ts.length)) ts
    let next ← peek
    if (next.is "++" || next.is "--") && !next.afterNewline then
      return .node .expression p [← kind .punctuation .token]
    else return p

def infixMarks : List Text := List.map Text.ofString
  ["+", "-", "*", "/", "%", "**", "&", "|", "^", "&&", "||", "??", "==", "===", "!=", "!==", "<", "<=", "<<", "=", "+=",
    "-=", "*=", "/=", "%=", "**=", "&=", "|=", "^=", "&&=", "||=", "??=", "<<="]

/-- An operator between two operands. One that starts with `>` takes up to four tokens. -/
def infixOperator : Reader (List Part) := do
  let t ← peek
  if t.is ">" then
    many do return [← token ">" <|> token "=" <|> token "==" <|> token "==="]
  else if t.kind = .punctuation && infixMarks.contains t.text then return [← kind .punctuation .token]
  else return [← token "in" <|> token "instanceof"]

/-- What can follow an operand: an operator with another one, a type, or the two branches of a choice. -/
def tail (plain : Bool) : Reader (List Part) := do
  let t ← peek
  if (t.is "as" || t.is "satisfies") && !t.afterNewline then
    let mark ← word .token
    return [mark, ← go .type]
  else if t.is "?" then
    let question ← token "?"
    let branch (plain : Bool) : Reader (List Part) := do
      let yes ← go (.expression plain)
      return [yes, ← token ":"]
    let yes ← branch false <|> branch true
    return question :: yes ++ [← go (.expression plain)]
  else
    let mark ← infixOperator
    return mark ++ [← arrowFunction go plain <|> go .operand]

def yieldExpression : Reader Part := do
  let mark ← token "yield"
  let star ← maybeToken "*"
  let t ← peek
  let value ← if startsExpression t && !t.afterNewline then maybe (go (.expression false)) else pure []
  return .node .expression mark (star ++ value)

def expression (plain : Bool) : Reader Part := do
  if (← is "yield") && !(← isAt 1 "=>") then yieldExpression go
  else
    let first ← arrowFunction go plain <|> go .operand
    let rest ← many (tail go plain)
    match rest with
    | [] => return first
    | _ => return .node .expression first rest

/-- Expressions separated by commas. -/
def sequence : Reader Part := do
  let first ← go (.expression false)
  let rest ← many do
    let comma ← token ","
    return [comma, ← go (.expression false)]
  match rest with
  | [] => return first
  | _ => return .node .expression first rest

end DeclPieces.Syntax.Reader
