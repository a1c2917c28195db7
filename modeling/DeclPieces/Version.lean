import DeclPieces.Text

/-! The version of the program. -/
namespace DeclPieces

/-- What a build knows about itself. -/
structure Version where
  number : Text := "0.4.0"
  commit : Text := "unknown"
  built : Text := "unknown"
  deriving DecidableEq, Repr

namespace Version

/-- The number, with the first seven bytes of the commit if it is known. -/
def info (v : Version) : Text :=
  if v.commit ≠ Text.ofString "unknown" && 7 < v.commit.length then v.number ++ " (" ++ v.commit.take 7 ++ ")"
  else v.number

def full (v : Version) : Text :=
  Text.joinWith [Text.newline]
    ["dtsplit version " ++ v.number, "Commit: " ++ v.commit, "Built: " ++ v.built]

end Version

end DeclPieces
