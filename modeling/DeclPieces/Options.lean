import DeclPieces.Path

/-! How pieces are addressed and marked. -/
namespace DeclPieces

structure Options where
  /-- Source files live below this directory. -/
  translatedRoot : Path := []
  /-- Piece directories are laid out below this one as the sources are below the other. -/
  piecesRoot : Path := []
  extension : Text := []
  indexName : Text := []
  packageName : Text := []
  /-- Marks the documentation block of a file as a whole. -/
  docTag : Text := []
  importMarker : Text := []
  exportMarker : Text := []
  deriving DecidableEq, Repr

namespace Options

def importMarkerDefault : Text := "/*@piece-import*/"

def exportMarkerDefault : Text := "/*@piece-export*/"

def orElse (t fallback : Text) : Text := if t.isEmpty then fallback else t

/-- Fills in what is left empty, the two roots apart. -/
def withDefaults (o : Options) : Options :=
  { o with
    extension := orElse o.extension ".d.ts"
    indexName := orElse o.indexName "index"
    packageName := orElse o.packageName "package"
    docTag := orElse o.docTag "@packageDocumentation"
    importMarker := orElse o.importMarker importMarkerDefault
    exportMarker := orElse o.exportMarker exportMarkerDefault }

@[simp] theorem orElse_orElse (t fallback : Text) : orElse (orElse t fallback) fallback = orElse t fallback := by
  unfold orElse
  split <;> simp_all

@[simp] theorem withDefaults_withDefaults (o : Options) : o.withDefaults.withDefaults = o.withDefaults := by
  simp [withDefaults]

def ofRoots (translatedRoot piecesRoot : Path) : Options := { translatedRoot, piecesRoot : Options }.withDefaults

/-- The file name of the generated index. -/
def indexFile (o : Options) : Text := o.indexName ++ o.extension

end Options

end DeclPieces
