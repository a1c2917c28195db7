import DeclPieces.Proofs.Outline
import DeclPieces.Workspace.Basic

/-! Parsers, and the pieces they lay a text out in. Nothing about the commands depends on how a parser reads, but
several of them read the same text more than once, and rely on it that the text falls into the same pieces again. -/
namespace DeclPieces

namespace Parser

/-- The parser of this library, in which every file sees the symbols `globals`. -/
abbrev builtIn (globals : List Symbol) : Parser := ofGrammar .builtIn globals

lemma fst_builtIn (globals : List Symbol) (isFile : Path → Bool) (path : Path) (text : Text) :
    (builtIn globals isFile path text).1 =
      .ok (SourceFile.ofText { isFile := isFile, globals := globals } path text) := rfl

/-- The pieces of a text that a parser has read. -/
def layout (parser : Parser) (o : Options) (isFile : Path → Bool) (path : Path) (text : Text) :
    Except Failure Decomposition :=
  match (parser isFile path text).1 with
  | .ok f => f.decompose o
  | .error e => .error (.fault e)

/-- A parser whose files are those of the path and the text it is given, and fall into the same pieces whatever other
files there are. -/
class Deterministic (parser : Parser) (o : Options) : Prop where
  path_eq : ∀ {isFile : Path → Bool} {path : Path} {text : Text} {f : SourceFile},
    (parser isFile path text).1 = .ok f → f.path = path
  text_eq : ∀ {isFile : Path → Bool} {path : Path} {text : Text} {f : SourceFile},
    (parser isFile path text).1 = .ok f → f.text = text
  layout_eq : ∀ (isFile isFile' : Path → Bool) (path : Path) (text : Text),
    parser.layout o isFile path text = parser.layout o isFile' path text

variable {parser : Parser} {o : Options} {isFile : Path → Bool} {path : Path} {text : Text} {d : Decomposition}

lemma layout_eq_ok (h : parser.layout o isFile path text = .ok d) : ∃ f : SourceFile, f.decompose o = .ok d := by
  unfold layout at h
  split at h
  · next f _ => exact ⟨f, h⟩
  · cases h

/-- The directory of the pieces depends on the path alone. -/
lemma pieceDirectory_eq [parser.Deterministic o] (hd : parser.layout o isFile path text = .ok d) :
    Address.pieceDirectory o.withDefaults path = .ok d.dir := by
  unfold layout at hd
  split at hd
  · next f hf =>
    obtain ⟨dir, opening, a, parts, index, hdir, -, -, -, rfl⟩ := SourceFile.decompose_eq_ok hd
    rw [← Deterministic.path_eq o hf]
    exact hdir
  · cases hd

/-- Whatever the grammar, and whether or not it can read every text, files fall into the same pieces each time. -/
instance ofGrammar_deterministic (grammar : Grammar) (globals : List Symbol) (o : Options) :
    (ofGrammar grammar globals).Deterministic o where
  path_eq {isFile path text f} h := by
    unfold ofGrammar at h
    split at h
    · cases h
    · obtain rfl := Except.ok.inj h
      rfl
  text_eq {isFile path text f} h := by
    unfold ofGrammar at h
    split at h
    · cases h
    · obtain rfl := Except.ok.inj h
      rfl
  layout_eq isFile isFile' path text := by
    unfold layout ofGrammar
    cases grammar text with
    | error e => rfl
    | ok root =>
      have hsame := SourceFile.decompose_outline_isFile isFile globals path text root.trees o
      have hsame' := SourceFile.decompose_outline_isFile isFile' globals path text root.trees o
      exact hsame.trans hsame'.symm

end Parser

namespace Workspace

/-- The pieces of a source that reads as `text`. -/
def layout (w : Workspace) (source : Path) (text : Text) : Except Failure Decomposition :=
  w.parser.layout w.options (fun _ => false) source text

lemma parser_layout (w : Workspace) [w.parser.Deterministic w.options] (isFile : Path → Bool) (source : Path)
    (text : Text) : w.parser.layout w.options isFile source text = w.layout source text :=
  Parser.Deterministic.layout_eq isFile _ source text

end Workspace

end DeclPieces
