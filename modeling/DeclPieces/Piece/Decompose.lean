import DeclPieces.Piece

/-! Splitting a file into pieces. -/
namespace DeclPieces

namespace Statement

/-- The symbol a statement is named for: its own, or else the first one declared inside it. -/
def mainSymbol? (s : Statement) : Option SymbolId := s.symbol.or (s.descendants.findSome? id)

/-- The start of a statement with its documentation, the blocks from the package block back left out. -/
def leadingStart (s : Statement) (packageDoc : Option Comment) : Int :=
  let own := s.docs.reverse.takeWhile fun doc =>
    match packageDoc with
    | some p => !(doc.start = p.start && doc.stop = p.stop)
    | none => true
  own.foldl (fun start doc => min start doc.start) s.start

end Statement

/-- What a statement contributes to a decomposition. -/
inductive Share where
  | nothing
  | skip (skip : Skip)
  | piece (piece : Piece)
  deriving DecidableEq, Repr

namespace Share

def piece? : Share → Option Piece
  | .piece p => some p
  | _ => none

def skip? : Share → Option Skip
  | .skip s => some s
  | _ => none

end Share

namespace SourceFile

/-- Why a statement yields no piece, or the category and the symbol of the piece it yields. -/
inductive Verdict where
  | silent
  | refused (reason : Text)
  | accepted (category : Category) (id : SymbolId)
  deriving DecidableEq, Repr

def verdict (s : Statement) : Verdict :=
  if s.kind.skipped then .silent
  else match s.kind.category? with
    | none => .refused "no category"
    | some category =>
      match s.mainSymbol? with
      | none => .refused "no symbol"
      | some id => .accepted category id

/-- The piece of a statement that declares `symbol` and is stored at `path`. -/
def declarationPiece (f : SourceFile) (o : Options) (s : Statement) (category : Category) (id : SymbolId)
    (symbol : Symbol) (path : Path) : Except Fault Piece := do
  let start := s.leadingStart (f.packageDoc o.docTag)
  let refs := f.crossReferences o s start s.stop
  let imports ← DeclPieces.importText o refs path
  let named := isIdentifier symbol.name && (s.exported || f.inScope id)
  return {
    start := start
    stop := s.stop
    path := path
    importText := imports
    exportText := if !s.exported && named then DeclPieces.exportText o symbol.name else []
    role := .declared symbol.name s.kind category refs (!named) }

/-- What statement `s` contributes, and the paths in use after it. -/
def share (f : SourceFile) (o : Options) (dir : Path) (a : Allocator) (s : Statement) :
    Except Fault (Share × Allocator) :=
  match verdict s with
  | .silent => .ok (.nothing, a)
  | .refused reason => .ok (.skip ⟨s.kind, s.start, reason⟩, a)
  | .accepted category id => do
    let symbol := (f.symbol? id).getD ⟨[], []⟩
    let (path, a) ← a.allocateFree (Path.join dir category.name) (Address.fileName symbol.name) o.extension
    let piece ← f.declarationPiece o s category id symbol path
    return (.piece piece, a)

def shares (f : SourceFile) (o : Options) (dir : Path) : Allocator → List Statement → Except Fault (List Share)
  | _, [] => .ok []
  | a, s :: rest => do
    let (share, a) ← f.share o dir a s
    let others ← f.shares o dir a rest
    return share :: others

/-- The import statement with its relative module path made to lead to the same place from `dir`. -/
def rewriteImport (f : SourceFile) (dir : Path) (im : Import) : Except Failure Text :=
  match f.slice? im.start im.stop with
  | none => .error .outOfRange
  | some text =>
    if !im.isRelative || im.specifierStop ≤ im.specifierStart then .ok text
    else match Address.moduleReference dir (Path.join (Path.dir f.path) im.specifier) with
      | .error fault => .error (.fault fault)
      | .ok module =>
        match f.slice? im.start im.specifierStart, f.slice? im.specifierStop im.stop with
        | some before, some after => .ok (before ++ module ++ after)
        | _, _ => .error .outOfRange

/-- The lines of the index for an import: the import, and the export of the names it binds. -/
def importLines (f : SourceFile) (dir : Path) (im : Import) : Except Failure Text := do
  let text ← f.rewriteImport dir im
  let keyword : Text := if im.typeOnly then "export type" else "export"
  let exports : Text :=
    if im.names.isEmpty then []
    else keyword ++ " \x7b " ++ Text.joinWith ", " im.names ++ " \x7d;" ++ [Text.newline]
  return text ++ [Text.newline] ++ exports

/-- The line of the index for a piece; the package piece has none. -/
def pieceLine (dir : Path) (p : Piece) : Except Failure Text :=
  match p.role with
  | .declared symbol _ _ _ sideEffect =>
    match Address.moduleReference dir p.path with
    | .error fault => .error (.fault fault)
    | .ok module =>
      if sideEffect then .ok ("import '" ++ module ++ "';" ++ [Text.newline])
      else .ok ("export \x7b " ++ symbol ++ " \x7d from '" ++ module ++ "';" ++ [Text.newline])
  | _ => .ok []

/-- The index: the imports of the file, then one line for each piece in source order. -/
def indexContent (f : SourceFile) (dir : Path) (content : List Piece) : Except Failure Text := do
  let imports ← f.imports.mapM (f.importLines dir)
  let lines ← content.mapM (pieceLine dir)
  let gap : Text := if f.imports.isEmpty || content.isEmpty then [] else [Text.newline]
  return imports.flatten ++ gap ++ lines.flatten

/-- The paths in use once the index and the package piece have theirs, and the package piece. -/
def openingPieces (f : SourceFile) (o : Options) (dir : Path) : Except Fault (List Piece × Allocator) :=
  let a := Allocator.reserve {} (Path.join dir o.indexFile)
  match f.packageDoc o.docTag with
  | none => .ok ([], a)
  | some doc => do
    let (path, a) ← a.allocateFree dir o.packageName o.extension
    return ([{ start := doc.start, stop := doc.stop, path := path, role := .package }], a)

def lift {α : Type} : Except Fault α → Except Failure α
  | .ok x => .ok x
  | .error fault => .error (.fault fault)

/-- Splits a file into pieces. Nothing is read or written. -/
def decompose (f : SourceFile) (opts : Options) : Except Failure Decomposition := do
  let o := opts.withDefaults
  let dir ← lift (Address.pieceDirectory o f.path)
  let (opening, a) ← lift (f.openingPieces o dir)
  let shares ← lift (f.shares o dir a f.statements)
  let content := opening ++ shares.filterMap Share.piece?
  let index ← f.indexContent dir content
  let sorted := content.stableSort fun p q => decide (q.start ≤ p.start)
  return {
    source := f.path
    dir := dir
    pieces := { path := Path.join dir o.indexFile, role := .generated index } :: sorted
    skipped := shares.filterMap Share.skip? }

/-- The records about one statement. -/
def statementRecords (f : SourceFile) (o : Options) (s : Statement) : List Log.Record :=
  match verdict s with
  | .silent => []
  | .refused reason =>
    let what : Text := if reason = Text.ofString "no category" then "category" else "symbol"
    [Log.record .warn ("Skipping declaration without " ++ what)
      [("file", .text f.path), ("kind", .text s.kind.name), ("offset", .int s.start)]]
  | .accepted .. => f.droppedReferences o s (s.leadingStart (f.packageDoc o.docTag)) s.stop

/-- The records about the statements up to the first that cannot be split off. -/
def shareRecords (f : SourceFile) (o : Options) (dir : Path) : Allocator → List Statement → List Log.Record
  | _, [] => []
  | a, s :: rest =>
    f.statementRecords o s ++
      match f.share o dir a s with
      | .error _ => []
      | .ok (_, a) => f.shareRecords o dir a rest

/-- What is logged while a file is split. -/
def decomposeLog (f : SourceFile) (opts : Options) : List Log.Record :=
  let o := opts.withDefaults
  match Address.pieceDirectory o f.path with
  | .error _ => []
  | .ok dir =>
    let records := match f.openingPieces o dir with
      | .error _ => []
      | .ok (_, a) => f.shareRecords o dir a f.statements
    match f.decompose opts with
    | .error _ => records
    | .ok d => records ++ [Log.record .debug "Decomposed declaration file"
        [("file", .text f.path), ("pieces", .int d.content.length), ("skipped", .int d.skipped.length)]]

end SourceFile

end DeclPieces
