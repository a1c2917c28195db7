import DeclPieces.Path
import DeclPieces.Text.Rune

/-! File name patterns: `*` stands for any characters but a slash, `?` for one of them, `[a-z]` and
`[^a-z]` for one of a class, and a backslash takes the next character as it is. -/
namespace DeclPieces

namespace Glob

/-- What one place of a name has to be. -/
inductive Item where
  | byte (b : UInt8)
  | one
  | cls (negated : Bool) (ranges : List (Char × Char))
  deriving DecidableEq, Repr

/-- A run of places, which a star may let start anywhere. -/
structure Chunk where
  star : Bool
  items : List Item
  deriving DecidableEq, Repr

end Glob

abbrev Glob := List Glob.Chunk

namespace Glob

/-- A character of a class, with what follows it. Something has to follow. -/
def classChar? (t : Text) : Option (Char × Text) :=
  let plain : Option Text := match t with
    | [] => none
    | 92 :: rest => if rest.isEmpty then none else some rest
    | b :: rest => if b = 45 || b = 93 then none else some (b :: rest)
  match plain with
  | some (b :: rest) =>
    let (c, n) := Rune.next b rest
    let left := rest.drop n
    if left.isEmpty || (c = Rune.replacement && n = 0) then none else some (c, left)
  | _ => none

/-- The ranges of a class up to its closing bracket; `fuel` bounds their number. -/
def ranges? (first : Bool) : Nat → Text → Option (List (Char × Char) × Text)
  | 0, _ => none
  | fuel + 1, t =>
    match t, first with
    | 93 :: rest, false => some ([], rest)
    | _, _ => do
      let (low, t) ← classChar? t
      let (high, t) ← match t with
        | 45 :: rest => classChar? rest
        | _ => some (low, t)
      let (more, t) ← ranges? false fuel t
      return ((low, high) :: more, t)

/-- The item at the front of a pattern that starts with no star. -/
def item? (t : Text) : Option (Item × Text) :=
  match t with
  | [] => none
  | 91 :: rest =>
    let (negated, rest) : Bool × Text := match rest with
      | 94 :: more => (true, more)
      | _ => (false, rest)
    (ranges? true (rest.length + 1) rest).map fun (rs, left) => (.cls negated rs, left)
  | 63 :: rest => some (.one, rest)
  | 92 :: rest => match rest with
    | [] => none
    | b :: more => some (.byte b, more)
  | b :: rest => some (.byte b, rest)

/-- Reads a pattern into chunks; `fuel` bounds its length. -/
def parseFrom : Nat → Text → Option Glob
  | 0, t => if t.isEmpty then some [] else none
  | fuel + 1, t =>
    match t with
    | [] => some []
    | 42 :: rest => do
      match ← parseFrom fuel rest with
      | c :: more => if c.star then return c :: more else return { c with star := true } :: more
      | [] => return [⟨true, []⟩]
    | _ => do
      let (i, rest) ← item? t
      match ← parseFrom fuel rest with
      | c :: more => if c.star then return ⟨false, [i]⟩ :: c :: more else return { c with items := i :: c.items } :: more
      | [] => return [⟨false, [i]⟩]

/-- The pattern that a text spells, if it is well formed. -/
def parse? (t : Text) : Option Glob := parseFrom t.length t

/-- What is left of a name once the items are matched at its front. -/
def matchItems : List Item → Text → Option Text
  | [], name => some name
  | _ :: _, [] => none
  | i :: more, b :: rest =>
    let (c, n) := Rune.next b rest
    match i with
    | .byte x => if x = b then matchItems more rest else none
    | .one => if b = Path.slash then none else matchItems more (rest.drop n)
    | .cls negated ranges =>
      if ranges.any (fun (low, high) => low ≤ c && c ≤ high) = negated then none
      else matchItems more (rest.drop n)

/-- What is left once the items are matched after skipping at least one byte. The `last` chunk has to
match to the end. -/
def skipping (items : List Item) (last : Bool) : Text → Option Text
  | [] => none
  | b :: rest =>
    if b = Path.slash then none
    else match matchItems items rest with
      | some left => if last && !left.isEmpty then skipping items last rest else some left
      | none => skipping items last rest

def fits (name : Text) : Glob → Bool
  | [] => name.isEmpty
  | c :: more =>
    if c.star && c.items.isEmpty then !name.contains Path.slash
    else
      let here := match matchItems c.items name with
        | some left => if left.isEmpty || !more.isEmpty then some left else none
        | none => none
      match here.or (if c.star then skipping c.items more.isEmpty name else none) with
      | some left => fits left more
      | none => false

/-- Does the pattern that `pattern` spells match the name? A malformed one fits nothing. -/
def accepts (pattern name : Text) : Bool :=
  match parse? pattern with
  | some g => fits name g
  | none => false

end Glob

end DeclPieces
