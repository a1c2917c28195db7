import DeclPieces.Syntax.Reader

/-! Types, type parameters and the members of object types. -/
namespace DeclPieces.Syntax.Reader

variable (go : Recur)

/-- `: T`. -/
def typing : Reader Part := do
  let colon ← token ":"
  let type ← go .type
  return .node .clause colon [type]

/-- The result of a function, which may be a statement about a parameter. -/
def resultType : Reader Part := do
  let subject : Reader Part := name .identifier <|> leafIf (·.is "this") .this
  let predicate : Reader Part := do
    let s ← subject
    let is ← token "is"
    let type ← go .type
    return .node .clause s [is, type]
  let asserts : Reader Part := do
    let mark ← token "asserts"
    let claim ← predicate <|> subject
    return .node .clause mark [claim]
  predicate <|> asserts <|> go .type

def resultTyping : Reader Part := do
  let colon ← token ":"
  let type ← resultType go
  return .node .clause colon [type]

/-- Type parameters, parameters and result of a function. -/
def signature : Reader (List Part) := do
  let types ← maybe (go .typeParameters)
  let params ← go .parameters
  let result ← maybe (resultTyping go)
  return types ++ [params] ++ result

def typeParameter : Reader (List Part) := do
  let modifiers ← many do
    guardThat ((← peekAt 1).kind = .word && !(← isAt 1 "extends"))
    return [← leafIf (fun t => t.is "const" || t.is "in" || t.is "out") .token]
  let name ← name .typeIdentifier
  let bound ← maybe do
    let mark ← token "extends"
    return .node .clause mark [← go .type]
  let default ← maybe do
    let mark ← token "="
    return .node .clause mark [← go .type]
  match modifiers ++ [name.as .name] ++ bound ++ default with
  | first :: rest => return [.node .typeParameter first rest]
  | [] => fail

def typeParameters : Reader Part := do
  let first ← token "<"
  let members ← commaList (typeParameter go)
  let last ← token ">"
  return (Part.node .typeParameters first (members ++ [last])).as .typeParameters

def typeArguments : Reader Part := do
  let first ← token "<"
  let members ← commaList do return [← go .type]
  let last ← token ">"
  return .node .clause first (members ++ [last])

/-- A parameter: decorators and modifiers, a pattern, its type and its default. -/
def parameter : Reader (List Part) := do
  let decorators ← many do
    let mark ← token "@"
    return [.node .clause mark [← go .reference]]
  let modifiers ← many do
    let next ← peekAt 1
    guardThat (next.kind = .word || next.is "\x7b" || next.is "[" || next.is "...")
    return [← leafIf (fun t => t.is "public" || t.is "private" || t.is "protected" || t.is "override"
      || t.is "readonly") .token]
  let pattern ← leafIf (·.is "this") .this <|> go .pattern
  let mark ← maybeToken "?"
  let type ← maybe (typing go)
  let default ← do
    if ← is "=" then
      let eq ← token "="
      pure [eq, (← go (.expression false)).as .value]
    else pure []
  let label : Label := if mark.isEmpty then .requiredParameter else .optionalParameter
  match decorators ++ modifiers ++ [pattern.as .pattern] ++ mark ++ type ++ default with
  | first :: rest => return [.node label first rest]
  | [] => fail

def parameters : Reader Part := do
  let first ← token "("
  let members ← commaList (parameter go)
  let last ← token ")"
  return (Part.node .parameters first (members ++ [last])).as .parameters

/-- A name with dots: all but the last segment form its module. -/
def qualifiedName : Reader Part := do
  let first ← name .identifier
  let rest ← many do
    let dot ← token "."
    let segment ← word .typeIdentifier
    return [dot, segment]
  match rest with
  | [] => return { first with tree := .leaf .typeIdentifier none first.start first.tree.text }
  | _ => return nest first rest
where
  nest (module : Part) : List Part → Part
    | [dot, last] => .node .nestedTypeIdentifier (module.as .module) [dot, last.as .name]
    | dot :: segment :: rest =>
      let segment : Part := { segment with tree := .leaf .propertyIdentifier none segment.start segment.tree.text }
      nest (.node .nestedIdentifier (module.as .object) [dot, segment]) rest
    | _ => module

/-- A named type with its arguments. -/
def namedType : Reader Part := do
  let name ← qualifiedName
  let args ← maybe (go .typeArguments)
  if args.isEmpty then return name else return .node .type name args

/-- `(…) => T`, with type parameters before it. -/
def functionType : Reader Part := do
  let types ← maybe (go .typeParameters)
  guardThat ((← is "(") && (← groupThen "=>"))
  let params ← go .parameters
  let arrow ← token "=>"
  let result ← resultType go
  match types ++ [params, arrow, result] with
  | first :: rest => return .node .type first rest
  | [] => fail

def constructorType : Reader Part := do
  let abstract ← maybeToken "abstract"
  let new ← token "new"
  let types ← maybe (go .typeParameters)
  let params ← go .parameters
  let arrow ← token "=>"
  let result ← go .type
  match abstract ++ [new] ++ types ++ [params, arrow, result] with
  | first :: rest => return .node .type first rest
  | [] => fail

/-- The name after `typeof`, with the members taken from it. -/
def queriedName : Reader Part := do
  let module : Reader Part := do
    let mark ← token "import"
    let open_ ← token "("
    let args ← commaList do return [← go (.expression false)]
    let close ← token ")"
    return .node .expression mark (open_ :: args ++ [close])
  let first ← module <|> name .identifier <|> leafIf (·.is "this") .this
  grow (fun object => do
    let dot ← token "." <|> token "?."
    let member ← word .propertyIdentifier <|> kind .privateName .privateIdentifier
    return .node .memberExpression (object.as .object) [dot, member]) first

def typeQuery : Reader Part := do
  let mark ← token "typeof"
  let name ← queriedName go
  let args ← maybe (go .typeArguments)
  if args.isEmpty then return .node .type mark [name]
  else return .node .type mark [.node .expression name args]

/-- The type that a module exports under a name. -/
def importedType : Reader Part := do
  guardThat (← is "import")
  let name ← queriedName go
  let args ← maybe (go .typeArguments)
  if args.isEmpty then return name else return .node .type name args

def tupleMember : Reader (List Part) := do
  let named : Reader Part := do
    let label ← name .identifier
    let mark ← maybeToken "?"
    let type ← typing go
    return .node (if mark.isEmpty then .requiredParameter else .optionalParameter) (label.as .name) (mark ++ [type])
  let namedRest : Reader Part := do
    let dots ← token "..."
    let label ← name .identifier
    let type ← typing go
    return .node .requiredParameter ((Part.node .restPattern dots [label]).as .name) [type]
  let restOf : Reader Part := do
    let dots ← token "..."
    return .node .type dots [← go .type]
  let plain : Reader Part := do
    let type ← go .type
    let mark ← maybeToken "?"
    if mark.isEmpty then return type else return .node .type type mark
  return [← named <|> namedRest <|> restOf <|> plain]

def bracketed (open_ close : Text) (label : Label) (inner : Reader (List Part)) : Reader Part := do
  let first ← token open_
  let members ← inner
  let last ← token close
  return .node label first (members ++ [last])

/-- A template with substitutions of one kind. -/
def template (label : Label) (substitution : Reader Part) : Reader Part := do
  let mark : Text := [96]
  let first ← token mark
  let inner ← many do
    if ← is "$\x7b" then
      let open_ ← token "$\x7b"
      let inner ← substitution
      let close ← token "\x7d"
      return [.node .clause open_ [inner, close]]
    else return [← kind .chars .literal]
  let last ← token mark
  return .node label first (inner ++ [last])

def predefined : List Text :=
  ["any", "number", "boolean", "string", "symbol", "void", "unknown", "never", "object"]

def literalType : Reader Part := do
  let number : Reader Part := do
    let sign ← maybeToken "-"
    let value ← kind .number .literal
    match sign with
    | first :: _ => return .node .type first [value]
    | [] => return value
  number <|> kind .string .string
    <|> leafIf (fun t => t.is "true" || t.is "false" || t.is "null" || t.is "undefined") .literal

def primaryType : Reader Part := do
  let t ← peek
  if t.is "(" then bracketed "(" ")" .type do return [← go .type]
  else if t.is "\x7b" then go .objectType
  else if t.is "[" then bracketed "[" "]" .type (commaList (tupleMember go))
  else if t.text = [96] then template .type (go .type)
  else if t.is "typeof" then typeQuery go
  else if t.is "import" then importedType go
  else if t.is "this" then leafIf (·.is "this") .thisType
  else if t.kind = .word && predefined.contains t.text && !(← isAt 1 ".") then word .predefinedType
  else if t.is "const" then token "const"
  else literalType <|> namedType go

/-- `infer X`, with a bound. -/
def inferType : Reader Part := do
  let mark ← token "infer"
  let name ← name .typeIdentifier
  let bound ← do
    if ← is "extends" then
      let extends_ ← token "extends"
      pure [extends_, ← go .simpleType]
    else pure []
  return .node .inferType mark (name :: bound)

def typeOperand : Reader Part := do
  let t ← peek
  let next ← peekAt 1
  let operand := next.kind = .word || next.is "(" || next.is "[" || next.is "\x7b" || next.kind = .string
    || next.text = [96]
  if t.is "infer" && next.kind = .word then inferType go
  else if (t.is "keyof" || t.is "readonly") && operand then
    let mark ← word .token
    return .node .type mark [← go .typeOperand]
  else if t.is "unique" && next.is "symbol" then
    let mark ← word .token
    return .node .predefinedType mark [← token "symbol"]
  else if t.is "new" || (t.is "abstract" && next.is "new") then constructorType go
  else if t.is "<" then functionType go
  else if t.is "(" && (← groupThen "=>") then functionType go
  else
    let first ← primaryType go
    grow (fun p => do
      let open_ ← token "["
      if ← is "]" then return .node .type p [open_, ← token "]"]
      let index ← go .type
      let close ← token "]"
      return .node .type p [open_, index, close]) first

/-- Operands joined by `|` and `&`, with one of them in front if need be. -/
def simpleType : Reader Part := do
  let lead ← maybe (token "|" <|> token "&")
  let first ← go .typeOperand
  let rest ← many do
    let mark ← token "|" <|> token "&"
    return [mark, ← go .typeOperand]
  match lead ++ first :: rest with
  | [only] => return only
  | first :: rest => return .node .type first rest
  | [] => fail

/-- A type, conditional or not. -/
def fullType : Reader Part := do
  let left ← go .simpleType
  if !(← is "extends") then return left
  let extends_ ← token "extends"
  let right ← go .simpleType
  let question ← token "?"
  let yes ← go .type
  let colon ← token ":"
  let no ← go .type
  return .node .conditionalType (left.as .left)
    [extends_, right.as .right, question, yes.as .consequence, colon, no.as .alternative]

/-- The typing of an index or mapped member, with marks before its colon. -/
def memberTyping : Reader Part := do
  let marks ← many do return [← token "-" <|> token "+" <|> token "?"]
  let type ← typing go
  match marks with
  | first :: rest => return .node .clause first (rest ++ [type])
  | [] => return type

/-- `[key: K]: T` and `[P in K as N]: T`, with `readonly` marks before. -/
def indexSignature : Reader Part := do
  let marks ← many do return [← token "-" <|> token "+" <|> token "readonly"]
  let open_ ← token "["
  let indexed : Reader (List Part) := do
    let key ← name .identifier
    let colon ← token ":"
    let type ← go .type
    return [key.as .name, colon, type]
  let mapped : Reader (List Part) := do
    let key ← name .typeIdentifier
    let in_ ← token "in"
    let type ← go .type
    let newName ← do
      if ← is "as" then
        let as_ ← token "as"
        pure [as_, (← go .type).as .newName]
      else pure []
    return [.node .mappedClause (key.as .name) ([in_, type] ++ newName)]
  let inner ← indexed <|> mapped
  let close ← token "]"
  let type ← maybe (memberTyping go)
  match marks ++ [open_] ++ inner ++ [close] ++ type with
  | first :: rest => return .node .indexSignature first rest
  | [] => fail

/-- A property name: a word, a string, a number, or an expression in brackets. -/
def propertyName : Reader Part :=
  word .propertyIdentifier <|> kind .privateName .privateIdentifier <|> kind .string .string
    <|> kind .number .literal <|> bracketed "[" "]" .clause do return [← go (.expression false)]

/-- Can the token end a property name, so that a word before it is the name rather than a modifier? -/
def endsName (t : Token) : Bool :=
  t.is "(" || t.is "<" || t.is ":" || t.is "?" || t.is "!" || t.is "=" || t.is ";" || t.is "," || t.is "\x7d"
    || t.kind = .endOfText

def memberModifiers : List Text :=
  ["public", "private", "protected", "static", "readonly", "abstract", "override", "declare", "async", "get", "set",
    "accessor"]

/-- Words such as `readonly` and `get` in front of a member, and the star of a generator. -/
def modifiers : Reader (List Part) := many do
  if ← is "*" then return [← token "*"]
  guardThat (!endsName (← peekAt 1))
  return [← leafIf (fun t => t.kind = .word && memberModifiers.contains t.text) .token]

def typeMember : Reader Part := do
  let t ← peek
  let next ← peekAt 1
  if t.is "(" || t.is "<" then
    match ← signature go with
    | first :: rest => return .node .clause first rest
    | [] => fail
  else if (t.is "new" && (next.is "(" || next.is "<")) || (t.is "abstract" && next.is "new") then
    let abstract ← maybeToken "abstract"
    let new ← token "new"
    match abstract ++ [new] ++ (← signature go) with
    | first :: rest => return .node .clause first rest
    | [] => fail
  else
    indexSignature go <|> do
      let marks ← modifiers
      let name ← go .propertyName
      let question ← maybeToken "?"
      let tail ← if (← is "(") || (← is "<") then signature go else maybe (typing go)
      match marks ++ [name] ++ question ++ tail with
      | first :: rest => return .node .clause first rest
      | [] => fail

/-- Members in braces, separated by semicolons, commas or line ends. -/
def objectType : Reader Part :=
  bracketed "\x7b" "\x7d" .type <| many do
    if (← is ";") || (← is ",") then return [← token ";" <|> token ","]
    return [← typeMember go]

end DeclPieces.Syntax.Reader
