import DeclPieces.Syntax.Reader.Statement

/-! From the text of a declaration file to the trees of its statements. -/
namespace DeclPieces.Syntax

namespace Reader

/-- One step of reading, given how to read what is inside. -/
def step (go : Recur) : Goal → Reader Part
  | .statement => statement go
  | .block => block go
  | .sequence => sequence go
  | .expression plain => expression go plain
  | .operand => operand go
  | .reference => reference go
  | .pattern => pattern go
  | .parameters => parameters go
  | .typeParameters => typeParameters go
  | .type => fullType go
  | .simpleType => simpleType go
  | .typeOperand => typeOperand go
  | .typeArguments => typeArguments go
  | .objectType => objectType go
  | .classTail => classTail go
  | .propertyName => propertyName go

/-- Reads a goal whose parts nest at most `depth` deep. -/
def read : Nat → Goal → Reader Part
  | 0, _ => fail
  | depth + 1, goal => step (read depth) goal

end Reader

/-- The statements of a token list with the comments between them. What cannot be read becomes one
unreadable node; `fuel` bounds the number of statements. -/
def statements (depth : Nat) : Nat → List Token → List Tree
  | 0, _ => []
  | fuel + 1, ts =>
    match ts with
    | [] => []
    | t :: _ =>
      if t.kind = .endOfText then t.comments
      else match Reader.read depth .statement ts with
        | some (p, rest) => p.comments ++ p.tree :: statements depth fuel rest
        | none => t.comments ++
            [.node .unreadable none t.start ((ts.map Token.stop).foldl max t.stop)
              [.leaf .token none t.start t.text]]

/-- The top-level nodes of a file: statements and comments, in source order. -/
def parse (text : Text) : List Tree :=
  let ts := Token.scan text
  statements (8 * ts.length + 8) ts.length ts

end DeclPieces.Syntax
