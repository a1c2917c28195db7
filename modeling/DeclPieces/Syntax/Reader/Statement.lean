import DeclPieces.Syntax.Reader.Expression

/-! Statements and declarations. -/
namespace DeclPieces.Syntax.Reader

variable (go : Recur)

/-! Classes, interfaces and enumerations. -/

/-- A method without its name: signature, and body unless it is only declared. -/
def methodTail : Reader (List Part) := do
  let head ← signature go
  if ← is "\x7b" then return head ++ [← go .block]
  else return head ++ (← maybeToken ";")

def fieldTail : Reader (List Part) := do
  let type ← maybe (typing go)
  let value ← if ← is "=" then markedExpression go "=" else pure []
  return type ++ value ++ (← maybeToken ";")

def classMember : Reader (List Part) := do
  if (← is ";") || (← is ",") then return [← token ";" <|> token ","]
  if (← is "static") && (← isAt 1 "\x7b") then
    let mark ← token "static"
    return [.node .clause mark [← go .block]]
  if ← is "@" then return [← decorator go]
  let index : Reader Part := do
    let marks ← modifiers
    let sign ← indexSignature go
    if marks.isEmpty then return sign else node1 .clause (marks ++ [sign])
  let member : Reader Part := do
    let marks ← modifiers
    let name ← go .propertyName
    let question ← maybe (token "?" <|> token "!")
    let tail ← if (← is "(") || (← is "<") then methodTail go else fieldTail go
    node1 .clause (marks ++ [name] ++ question ++ tail)
  return [← index <|> member]

def classBody : Reader Part := bracketed "\x7b" "\x7d" .clause (many (classMember go))

/-- What follows the name of a class: type parameters, base classes and interfaces, body. -/
def classTail : Reader Part := do
  let types ← maybe (go .typeParameters)
  let base ← maybe do
    let mark ← token "extends"
    let bases ← commaList do
      let value ← go .reference
      return value :: (← maybe (go .typeArguments))
    return .node .clause mark bases
  let interfaces ← maybe do
    let mark ← token "implements"
    let members ← commaList do return [← go .type]
    return .node .clause mark members
  let body ← classBody go
  node1 .clause (types ++ base ++ interfaces ++ [body])

def classDeclaration (decorators : List Part) : Reader Part := do
  let abstract ← maybeToken "abstract"
  let mark ← token "class"
  let name ← name .typeIdentifier
  let tail ← go .classTail
  let parts := decorators ++ abstract ++ [mark, name.as .name] ++ spliced tail
  if abstract.isEmpty then node1 .classDeclaration (parts ++ (← maybeTrailing))
  else node1 .abstractClassDeclaration parts

def interfaceDeclaration : Reader Part := do
  let mark ← token "interface"
  let name ← name .typeIdentifier
  let types ← maybe (go .typeParameters)
  let bases ← maybe do
    let mark ← token "extends"
    let members ← commaList do return [← go .type]
    return .node .clause mark members
  let body ← go .objectType
  return .node .interfaceDeclaration mark ([name.as .name] ++ types ++ bases ++ [body])

def enumDeclaration : Reader Part := do
  let const ← maybeToken "const"
  let mark ← token "enum"
  let name ← name .identifier
  let body ← bracketed "\x7b" "\x7d" .clause <| commaList do
    let key ← go .propertyName
    let value ← if ← is "=" then markedExpression go "=" else pure []
    return [.node .clause key value]
  node1 .enumDeclaration (const ++ [mark, name.as .name, body])

def typeAlias : Reader Part := do
  let mark ← token "type"
  let name ← name .typeIdentifier
  let types ← maybe (go .typeParameters)
  let eq ← token "="
  let value ← go .type
  return .node .typeAliasDeclaration mark ([name.as .name] ++ types ++ [eq, value.as .value] ++ (← semicolon))

/-! Functions, variables and namespaces. -/

def functionDeclaration : Reader Part := do
  let async ← maybeToken "async"
  let mark ← token "function"
  let star ← maybeToken "*"
  let name ← name .identifier
  let head ← signature go
  let parts := async ++ [mark] ++ star ++ [name.as .name] ++ head
  if ← is "\x7b" then
    node1 (if star.isEmpty then .functionDeclaration else .generatorDeclaration) (parts ++ [← go .block])
  else node1 .functionSignature (parts ++ (← semicolon))

def declarator : Reader (List Part) := do
  let name ← go .pattern
  let mark ← maybeToken "!"
  let type ← maybe (typing go)
  let value ← if ← is "=" then markedExpression go "=" else pure []
  return [.node .variableDeclarator (name.as .name) (mark ++ type ++ value)]

def variableList : Reader Part := do
  let kind ← token "const" <|> token "let" <|> token "var"
  let label : Label := if kind.tree.text = Text.ofString "var" then .variableDeclaration else .lexicalDeclaration
  let members ← commaList (declarator go)
  guardThat (!members.isEmpty)
  return .node label kind (members ++ (← semicolon))

/-- The name of a namespace, all of whose segments are plain. -/
def namespaceName : Reader Part := do
  let first ← name .identifier
  grow (fun p => do
    let dot ← token "."
    return .node .nestedIdentifier (p.as .object) [dot, ← word .propertyIdentifier]) first

def moduleDeclaration : Reader Part := do
  let mark ← token "module"
  let name ← kind .string .string <|> namespaceName
  let body ← maybe (go .block)
  return .node .moduleDeclaration mark (name.as .name :: body)

def namespaceDeclaration : Reader Part := do
  let mark ← token "namespace"
  let name ← namespaceName
  let body ← go .block
  return .node .namespaceDeclaration mark [name.as .name, body]

/-! Imports and exports. -/

def moduleExportName : Reader Part := word .identifier <|> kind .string .string

def fromClause : Reader (List Part) := do
  let mark ← token "from"
  let source ← kind .string .string
  let attributes ← maybe do
    let mark ← token "with" <|> token "assert"
    return .node .clause mark [← go (.expression false)]
  return [mark, source.as .source] ++ attributes

def renamed (label : Label) : Reader Part := do
  let name ← moduleExportName
  let newName ← do
    if ← is "as" then
      let as_ ← token "as"
      pure [as_, (← moduleExportName).as .newName]
    else pure []
  return .node label (name.as .name) newName

/-- A member of an import or export clause, with a mark that it is a type. -/
def specifier (label : Label) : Reader (List Part) := do
  let typed : Reader Part := do
    let mark ← token "type" <|> token "typeof"
    guardThat (!((← is "as") && !(← isAt 1 "as") && !(← isAt 1 ",") && !(← isAt 1 "\x7d")))
    let inner ← renamed label
    node1 label (mark :: spliced inner)
  return [← typed <|> renamed label]

def exportClause : Reader Part := bracketed "\x7b" "\x7d" .exportClause (commaList (specifier .exportSpecifier))

def importClause : Reader Part := do
  let namespaceImport : Reader Part := do
    let star ← token "*"
    let as_ ← token "as"
    return .node .namespaceImport star [as_, ← name .identifier]
  let named : Reader Part := bracketed "\x7b" "\x7d" .namedImports (commaList (specifier .importSpecifier))
  let members : Reader Part := namespaceImport <|> named
  let defaulted : Reader Part := do
    let first ← name .identifier
    let more ← do
      if ← is "," then
        let comma ← token ","
        pure [comma, ← members]
      else pure []
    return .node .importClause first more
  let plain : Reader Part := do return .node .importClause (← members) []
  defaulted <|> plain

/-- `import X = A.B;`. -/
def importAlias : Reader Part := do
  let mark ← token "import"
  let name ← name .identifier
  let eq ← token "="
  let target ← namespaceName
  return .node .importAlias mark ([name, eq, target] ++ (← semicolon))

def importStatement : Reader Part := do
  let mark ← token "import"
  let require : Reader (List Part) := do
    let name ← name .identifier
    let eq ← token "="
    let mark ← token "require"
    let open_ ← token "("
    let source ← kind .string .string
    let close ← token ")"
    return [.node .importRequireClause name [eq, mark, open_, source.as .source, close]]
  let fromModule : Reader (List Part) := do
    let clause ← importClause
    return clause :: (← fromClause go)
  let typed : Reader (List Part) := do
    let type ← token "type" <|> token "typeof"
    return type :: (← require <|> fromModule)
  let bare : Reader (List Part) := do return [(← kind .string .string).as .source]
  let inner ← typed <|> require <|> fromModule <|> bare
  let attributes ← maybe do
    let mark ← token "with" <|> token "assert"
    return .node .clause mark [← go (.expression false)]
  return .node .importStatement mark (inner ++ attributes ++ (← semicolon))

/-! Declarations. -/

/-- A declaration, without `export` and `declare` before it. -/
def bareDeclaration (decorators : List Part) : Reader Part := do
  let t ← peek
  let next ← peekAt 1
  let named := next.kind = .word && !next.afterNewline
  if t.is "class" || (t.is "abstract" && next.is "class") then classDeclaration go decorators
  else
    guardThat decorators.isEmpty
    if t.is "interface" && named then interfaceDeclaration go
    else if t.is "enum" || (t.is "const" && next.is "enum") then enumDeclaration go
    else if t.is "type" && named then typeAlias go
    else if t.is "function" || (t.is "async" && next.is "function") then functionDeclaration go
    else if t.is "const" || t.is "var" || (t.is "let" && (named || next.is "[" || next.is "\x7b")) then variableList go
    else if t.is "module" && (next.kind = .string || named) then moduleDeclaration go
    else if t.is "namespace" && named then namespaceDeclaration go
    else if t.is "import" then importAlias
    else fail

/-- `declare` with a declaration or a global block. -/
def ambientDeclaration : Reader Part := do
  let mark ← token "declare"
  if (← is "global") && (← isAt 1 "\x7b") then
    let global ← token "global"
    return .node .ambientDeclaration mark [global, ← go .block]
  else
    let decorators ← many do return [← decorator go]
    return .node .ambientDeclaration mark [← bareDeclaration go decorators]

def declaration (decorators : List Part) : Reader Part :=
  (if decorators.isEmpty then ambientDeclaration go else fail) <|> bareDeclaration go decorators

/-- What `export default` can be followed by as a declaration. -/
def defaultDeclaration : Reader Part := do
  let t ← peek
  let next ← peekAt 1
  guardThat (t.is "class" || t.is "abstract" || t.is "interface" || t.is "enum" || t.is "function" || t.is "async"
    || t.is "@" || t.is "declare")
  guardThat (!(t.is "class" && (next.is "extends" || next.is "implements")))
  let decorators ← many do return [← decorator go]
  declaration go decorators

def exportStatement (decorators : List Part) : Reader Part := do
  let mark ← token "export"
  let stars : Reader (List Part) := do
    let type ← maybeToken "type"
    let star ← token "*"
    let exported ← do
      if ← is "as" then
        let as_ ← token "as"
        pure (Part.node .namespaceExport star [as_, ← moduleExportName])
      else pure star
    return type ++ [exported] ++ (← fromClause go) ++ (← semicolon)
  let clause : Reader (List Part) := do
    let type ← maybeToken "type"
    let members ← exportClause
    let source ← if ← is "from" then fromClause go else pure []
    return type ++ [members] ++ source ++ (← semicolon)
  let assignment : Reader (List Part) := do
    let eq ← token "="
    return [eq, ← go (.expression false)] ++ (← semicolon)
  let global : Reader (List Part) := do
    let as_ ← token "as"
    let mark ← token "namespace"
    return [as_, mark, ← name .identifier] ++ (← semicolon)
  let default : Reader (List Part) := do
    let mark ← token "default"
    let declared : Reader (List Part) := do return [mark, (← defaultDeclaration go).as .declaration]
    let valued : Reader (List Part) := do
      let value ← go (.expression false)
      return [mark, value.as .value] ++ (← semicolon)
    declared <|> valued
  let declared : Reader (List Part) := do
    let decorators ← many do return [← decorator go]
    return [(← declaration go decorators).as .declaration]
  let inner ← stars <|> clause <|> assignment <|> global <|> default <|> declared
  node1 .exportStatement (decorators ++ [mark] ++ inner)

/-! Statements that control the flow of execution. -/

def condition : Reader Part := bracketed "(" ")" .clause do return [← go .sequence]

def ifStatement : Reader Part := do
  let mark ← token "if"
  let test ← condition go
  let yes ← go .statement
  let no ← maybe do
    let mark ← token "else"
    return .node .clause mark [← go .statement]
  return .node .statement mark ([test, yes] ++ no)

/-- The three parts of a counting loop, or the variable and the values of the other kind. -/
def forHeader : Reader Part := do
  let open_ ← token "("
  let overBinding : Reader (List Part) := do
    let kind ← token "const" <|> token "let" <|> token "var"
    let target ← go .pattern
    let mark ← token "of" <|> token "in"
    return [kind, target, mark, ← go .sequence]
  let overTarget : Reader (List Part) := do
    let target ← go .reference
    let mark ← token "of"
    return [target, mark, ← go .sequence]
  let counting : Reader (List Part) := do
    let part : Reader (List Part) := do
      let value ← maybe (go .sequence)
      return value ++ [← token ";"]
    let first ← (do return [← variableList go]) <|> part
    let test ← part
    return first ++ test ++ (← maybe (go .sequence))
  let overValue : Reader (List Part) := do return [← go .sequence]
  let inner ← overBinding <|> overTarget <|> counting <|> overValue
  return .node .clause open_ (inner ++ [← token ")"])

def forStatement : Reader Part := do
  let mark ← token "for"
  let await ← maybeToken "await"
  let head ← forHeader go
  return .node .statement mark (await ++ [head, ← go .statement])

def whileStatement : Reader Part := do
  let mark ← token "while" <|> token "with"
  let test ← condition go
  return .node .statement mark [test, ← go .statement]

def doStatement : Reader Part := do
  let mark ← token "do"
  let body ← go .statement
  let while_ ← token "while"
  let test ← condition go
  return .node .statement mark ([body, while_, test] ++ (← maybeToken ";"))

def switchStatement : Reader Part := do
  let mark ← token "switch"
  let test ← condition go
  let body ← bracketed "\x7b" "\x7d" .clause <| many do
    let head ← do
      if ← is "case" then
        let mark ← token "case"
        pure [mark, ← go .sequence]
      else pure [← token "default"]
    let colon ← token ":"
    let body ← many do
      guardThat (!((← is "case") || ((← is "default") && (← isAt 1 ":"))))
      return [← go .statement]
    return [← node1 .clause (head ++ [colon] ++ body)]
  return .node .statement mark [test, body]

def tryStatement : Reader Part := do
  let mark ← token "try"
  let body ← go .block
  let handler ← maybe do
    let mark ← token "catch"
    let param ← do
      if ← is "(" then
        let open_ ← token "("
        let target ← go .pattern
        let type ← maybe (typing go)
        pure ([open_, target.as .parameter] ++ type ++ [← token ")"])
      else pure []
    return .node .clause mark (param ++ [← go .block])
  let finalizer ← maybe do
    let mark ← token "finally"
    return .node .clause mark [← go .block]
  return .node .statement mark ([body] ++ handler ++ finalizer)

/-- `return`, `throw` and the like, with what follows on the same line. -/
def jumpStatement : Reader Part := do
  if (← is "break") || (← is "continue") then
    let mark ← word .token
    let t ← peek
    let label ← if t.afterNewline then pure [] else maybe (name .labelIdentifier)
    return .node .statement mark (label ++ (← semicolon))
  else
    let mark ← token "return" <|> token "throw" <|> token "debugger"
    let t ← peek
    let value ← if t.afterNewline || !startsExpression t then pure [] else maybe (go .sequence)
    return .node .statement mark (value ++ (← semicolon))

def labeledStatement : Reader Part := do
  guardThat (← isAt 1 ":")
  let label ← name .labelIdentifier
  let colon ← token ":"
  return .node .statement label [colon, ← go .statement]

def expressionStatement : Reader Part := do
  let value ← go .sequence
  return .node .expressionStatement value (← semicolon)

/-- A namespace that a semicolon may follow. -/
def namespaceStatement : Reader Part := do
  let inner ← namespaceDeclaration go
  return .node .expressionStatement inner (← maybeToken ";")

def block : Reader Part := do
  let first ← token "\x7b"
  let members ← many do return [← go .statement]
  let last ← token "\x7d"
  return .node .block first (members ++ [last] ++ (← maybeTrailing))

/-- A statement that is no declaration. -/
def plainStatement : Reader Part := do
  let t ← peek
  if t.is "if" then ifStatement go
  else if t.is "for" then forStatement go
  else if t.is "while" || t.is "with" then whileStatement go
  else if t.is "do" then doStatement go
  else if t.is "switch" then switchStatement go
  else if t.is "try" then tryStatement go
  else if t.is "return" || t.is "throw" || t.is "debugger" || t.is "break" || t.is "continue" then jumpStatement go
  else labeledStatement go <|> expressionStatement go

def statement : Reader Part := do
  let t ← peek
  if t.kind = .hashBang then kind .hashBang .hashBang
  else if t.is ";" then return .node .emptyStatement (← token ";") []
  else if t.is "\x7b" then go .block
  else if t.is "import" && !(← isAt 1 "(") && !(← isAt 1 ".") then importStatement go <|> importAlias
  else if t.is "export" then exportStatement go []
  else if t.is "@" then
    let decorators ← many do return [← decorator go]
    exportStatement go decorators <|> declaration go decorators
  else if t.is "namespace" then namespaceStatement go <|> plainStatement go
  else declaration go [] <|> plainStatement go

end DeclPieces.Syntax.Reader
