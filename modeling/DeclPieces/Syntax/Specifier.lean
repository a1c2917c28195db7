import DeclPieces.Declaration
import DeclPieces.Path

/-! Where a relative module path leads. -/
namespace DeclPieces.Specifier

/-- What is put after a module path, in this order, to find its declarations. -/
def candidates : List Text :=
  [".d.ts", ".ts", ".d.mts", ".d.cts", "/index.d.ts", "/index.ts"].map Text.ofString

def isDeclarationFile (p : Path) : Bool :=
  p.hasSuffix ".ts" || p.hasSuffix ".mts" || p.hasSuffix ".cts"

/-- The declarations of an emitted script stand next to it. -/
def besideScript (p : Path) : List Path :=
  if p.ext = Text.ofString ".js" || p.ext = Text.ofString ".mjs" || p.ext = Text.ofString ".cjs" then
    let stem := Text.dropSuffix p p.ext
    [stem ++ Text.ofString ".d.ts", stem ++ Text.ofString ".ts"]
  else []

/-- The files that could be meant by `specifier` in the file `source`, best first. -/
def possible (source : Path) (specifier : Text) : List Path :=
  if !isRelativeSpecifier specifier then []
  else
    let target := Path.join source.dir specifier
    (if isDeclarationFile target then [target] else []) ++ besideScript target ++
      candidates.map (target ++ ·)

/-- The file that `specifier` leads to from `source`, if there is one. -/
def resolve? (isFile : Path → Bool) (source : Path) (specifier : Text) : Option Path :=
  (possible source specifier).find? isFile

end DeclPieces.Specifier
