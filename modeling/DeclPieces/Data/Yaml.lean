import DeclPieces.Data.Yaml.Scalar

/-! Reading YAML: one document of nested blocks, flow collections and scalars. Anchors, tags and
complex keys are not read. -/
namespace DeclPieces.Yaml

def isBlank (b : UInt8) : Bool := b = 32 || b = 9

def isBreak (b : UInt8) : Bool := b = 10 || b = 13

/-- A line without its indentation. -/
structure Line where
  indent : Nat
  text : Text
  deriving DecidableEq, Repr

namespace Line

def ofText (t : Text) : Line :=
  let t := if t.getLast? = some 13 then t.dropLast else t
  let body := t.dropWhile (· = 32)
  ⟨t.length - body.length, body⟩

def full (l : Line) : Text := List.replicate l.indent 32 ++ l.text

end Line

/-- Does nothing but a comment stand here? -/
def isVoid (t : Text) : Bool :=
  match t.dropWhile isBlank with
  | [] => true
  | b :: _ => b = 35

def skipVoid (ls : List Line) : List Line := ls.dropWhile fun l => isVoid l.text

/-- Does the line start an item of a list? -/
def isItem (t : Text) : Bool :=
  match t with
  | [45] => true
  | 45 :: b :: _ => isBlank b
  | _ => false

/-! Quoted scalars, which may run over several lines. -/

/-- Folds the line breaks at the front, with the blanks around them, into a blank or fewer breaks. -/
def foldBreaks (t : Text) : Text × Text :=
  let front := t.takeWhile fun b => isBlank b || isBreak b
  let breaks := front.count 10
  (if breaks ≤ 1 then [32] else List.replicate (breaks - 1) 10, t.drop front.length)

/-- Is there a line break after the blanks at the front? -/
def breaksNext (t : Text) : Bool := (t.dropWhile isBlank).head?.any isBreak

def singleQuoted? : Nat → Text → Option (Text × Text)
  | 0, _ => none
  | _, [] => none
  | fuel + 1, 39 :: 39 :: rest => (singleQuoted? fuel rest).map fun (body, rest) => (39 :: body, rest)
  | _ + 1, 39 :: rest => some ([], rest)
  | fuel + 1, b :: rest =>
    if breaksNext (b :: rest) then
      let (fold, rest) := foldBreaks (b :: rest)
      (singleQuoted? fuel rest).map fun (body, rest) => (fold ++ body, rest)
    else (singleQuoted? fuel rest).map fun (body, rest) => (b :: body, rest)

def codePoint? (width : Nat) (t : Text) : Option (Text × Text) := do
  if t.length < width then none
  let n ← Number.inBase? 16 (t.take width)
  if n.isValidChar then some (Text.ofChars [Char.ofNat n], t.drop width) else none

/-- The text of an escape after its backslash, and what follows. -/
def escape? : Text → Option (Text × Text)
  | 120 :: rest => codePoint? 2 rest
  | 117 :: rest => codePoint? 4 rest
  | 85 :: rest => codePoint? 8 rest
  | b :: rest =>
    let table : List (UInt8 × Nat) :=
      [(48, 0), (97, 7), (98, 8), (116, 9), (9, 9), (110, 10), (118, 11), (102, 12), (114, 13), (101, 27), (32, 32),
        (34, 34), (39, 39), (47, 47), (92, 92), (78, 0x85), (95, 0xA0), (76, 0x2028), (80, 0x2029)]
    (table.lookup b).map fun n => (Text.ofChars [Char.ofNat n], rest)
  | [] => none

def doubleQuoted? : Nat → Text → Option (Text × Text)
  | 0, _ => none
  | _, [] => none
  | _ + 1, 34 :: rest => some ([], rest)
  | fuel + 1, 92 :: rest =>
    if rest.head?.any isBreak then
      doubleQuoted? fuel (rest.dropWhile fun b => isBlank b || isBreak b)
    else do
      let (t, rest) ← escape? rest
      let (body, rest) ← doubleQuoted? fuel rest
      return (t ++ body, rest)
  | fuel + 1, b :: rest =>
    if breaksNext (b :: rest) then
      let (fold, rest) := foldBreaks (b :: rest)
      (doubleQuoted? fuel rest).map fun (body, rest) => (fold ++ body, rest)
    else (doubleQuoted? fuel rest).map fun (body, rest) => (b :: body, rest)

/-- A quoted scalar at the front. -/
def quoted? (t : Text) : Option (Text × Text) :=
  match t with
  | 34 :: rest => doubleQuoted? (t.length + 1) rest
  | 39 :: rest => singleQuoted? (t.length + 1) rest
  | _ => none

/-! Plain scalars. -/

/-- Characters that start no plain scalar. -/
def isIndicator (b : UInt8) : Bool :=
  [44, 91, 93, 123, 125, 35, 38, 42, 33, 124, 62, 39, 34, 37, 64, 96].contains b

/-- May a plain scalar start like this? -/
def startsPlain : Text → Bool
  | [] => false
  | [b] => !isIndicator b && b ≠ 45 && b ≠ 63 && b ≠ 58
  | b :: c :: _ => !isIndicator b && ((b ≠ 45 && b ≠ 63 && b ≠ 58) || !isBlank c)

/-- The text up to a comment, without the blanks at its end. -/
def beforeComment (t : Text) : Text :=
  let rec scan (afterBlank : Bool) : Text → Text
    | [] => []
    | b :: rest => if b = 35 && afterBlank then [] else b :: scan (isBlank b) rest
  ((scan true t).reverse.dropWhile isBlank).reverse

/-- Splits at the first colon that ends a key. -/
def splitColon? : Text → Option (Text × Text)
  | [] => none
  | [58] => some ([], [])
  | 58 :: b :: rest =>
    if isBlank b then some ([], b :: rest)
    else (splitColon? (b :: rest)).map fun (key, rest) => (58 :: key, rest)
  | b :: rest => (splitColon? rest).map fun (key, rest) => (b :: key, rest)

/-- The key at the front of a line and what follows its colon. -/
def splitKey? (t : Text) : Option (Text × Text) :=
  match quoted? t with
  | some (key, rest) => match rest.dropWhile isBlank with
    | 58 :: rest => if rest.head?.all isBlank then some (key, rest) else none
    | _ => none
  | none =>
    if startsPlain t then
      (splitColon? (beforeComment t)).map fun (key, _) =>
        ((key.reverse.dropWhile isBlank).reverse, t.drop (key.length + 1))
    else none

/-! Flow collections. -/

/-- Skips blanks, line breaks and comments. -/
def skipFlow : Nat → Text → Text
  | 0, t => t
  | fuel + 1, t => match t.dropWhile fun b => isBlank b || isBreak b with
    | 35 :: rest => skipFlow fuel (rest.dropWhile fun b => !isBreak b)
    | t => t

def isFlowMark (b : UInt8) : Bool := [44, 91, 93, 123, 125].contains b

/-- The plain scalar at the front of a flow collection. -/
def flowPlain : Text → Text
  | [] => []
  | b :: rest =>
    if isFlowMark b || isBreak b then []
    else if b = 58 && rest.head?.all fun c => isBlank c || isBreak c || isFlowMark c then []
    else if isBlank b && rest.head? = some 35 then []
    else b :: flowPlain rest

/-- A scalar inside a flow collection. -/
def flowScalar? (t : Text) : Option (Data × Text) :=
  match t with
  | 34 :: _ | 39 :: _ => (quoted? t).map fun (s, rest) => (.text s, rest)
  | t =>
    let plain := flowPlain t
    if startsPlain plain then some (scalar (plain.reverse.dropWhile isBlank).reverse, t.drop plain.length)
    else none

/-- The name that a scalar is as a key. -/
def keyName? : Data × Text → Text → Option Text
  | (.text t, _), _ => some t
  | (_, rest), t => some ((t.take (t.length - rest.length)).reverse.dropWhile isBlank).reverse

mutual
def flow? : Nat → Text → Option (Data × Text)
  | 0, _ => none
  | fuel + 1, t => match t with
    | 91 :: rest => flowItems? fuel [] rest
    | 123 :: rest => flowMembers? fuel [] rest
    | t => flowScalar? t

def flowItems? : Nat → List Data → Text → Option (Data × Text)
  | 0, _, _ => none
  | fuel + 1, done, t => match skipFlow t.length t with
    | 93 :: rest => some (.list done.reverse, rest)
    | t => do
      let (item, t) ← flow? fuel t
      match skipFlow t.length t with
      | 44 :: rest => flowItems? fuel (item :: done) rest
      | 93 :: rest => some (.list (item :: done).reverse, rest)
      | _ => none

def flowMembers? : Nat → List (Text × Data) → Text → Option (Data × Text)
  | 0, _, _ => none
  | fuel + 1, done, t => match skipFlow t.length t with
    | 125 :: rest => some (.table done, rest)
    | t => do
      let (key, after) ← flowScalar? t
      let name ← keyName? (key, after) t
      if (done.lookup name).isSome then none
      let (item, t) ← match skipFlow after.length after with
        | 58 :: rest =>
          let rest := skipFlow rest.length rest
          if rest.head?.any fun b => b = 44 || b = 125 then some (.null, rest) else flow? fuel rest
        | rest => some (.null, rest)
      match skipFlow t.length t with
      | 44 :: rest => flowMembers? fuel (done ++ [(name, item)]) rest
      | 125 :: rest => some (.table (done ++ [(name, item)]), rest)
      | _ => none
end

/-! Block scalars. -/

/-- The lines of a block scalar, less their common indentation. -/
def blockLines (least : Nat) (ls : List Line) : List Text × List Line :=
  let depth := ((ls.find? fun l => !l.text.isEmpty).map Line.indent).getD 0
  let depth := max depth least
  let inside (l : Line) : Bool := l.text.isEmpty || depth ≤ l.indent
  ((ls.takeWhile inside).map fun l => l.full.drop depth, ls.dropWhile inside)

def dropEmptyEnd (ts : List Text) : List Text := (ts.reverse.dropWhile List.isEmpty).reverse

/-- Joins the lines of a folded scalar: one break between two lines is a blank. -/
def folded : List Text → Text
  | [] => []
  | [t] => t
  | t :: u :: rest =>
    if t.isEmpty then 10 :: folded (u :: rest)
    else if u.isEmpty then t ++ folded (u :: rest)
    else if t.head?.any isBlank || u.head?.any isBlank then t ++ 10 :: folded (u :: rest)
    else t ++ 32 :: folded (u :: rest)

/-- A block scalar, from its mark on. -/
def blockScalar? (least : Nat) (header : Text) (ls : List Line) : Option (Data × List Line) :=
  let marks := beforeComment header
  let chomps := marks.drop 1
  if !(chomps.all fun b => b = 43 || b = 45) || 1 < chomps.length then none
  else
    let (lines, rest) := blockLines least ls
    let body := dropEmptyEnd lines
    let joined := if marks.head? = some 124 then Text.joinWith [10] body else folded body
    let ending := if chomps = [45] || body.isEmpty then []
      else if chomps = [43] then List.replicate (lines.length - body.length + 1) 10
      else [10]
    some (.text (joined ++ ending), rest)

/-! Blocks. -/

/-- Further lines of a plain scalar: a line break is a blank, and empty lines are breaks. -/
def plainLines? (least : Nat) (breaks : Nat) (done : Text) : List Line → Option (Text × List Line)
  | [] => some (done, [])
  | l :: rest =>
    if l.text.all isBlank then plainLines? least (breaks + 1) done rest
    else if l.indent < least || isVoid l.text then some (done, l :: rest)
    else
      let t := beforeComment l.text
      let gap := if breaks = 0 then [32] else List.replicate breaks 10
      if (splitColon? t).isSome then none
      else if t.length < (l.text.reverse.dropWhile isBlank).length then some (done ++ gap ++ t, rest)
      else plainLines? least 0 (done ++ gap ++ t) rest

/-- A value that starts on the line of its key; further lines are indented by at least `least`. -/
def leaf? (least : Nat) (t : Text) (rest : List Line) : Option (Data × List Line) :=
  match t with
  | [] => some (.null, rest)
  | b :: _ =>
    if b = 124 || b = 62 then blockScalar? least t rest
    else if b = 34 || b = 39 || b = 91 || b = 123 then do
      let whole := Text.joinWith [10] (t :: rest.map Line.full)
      let (d, after) ← flow? (2 * whole.length + 2) whole
      match Text.splitBy 10 after with
      | [] => some (d, [])
      | line :: lines => if isVoid line then some (d, lines.map Line.ofText) else none
    else if !startsPlain t then none
    else
      let first := beforeComment t
      if (splitColon? first).isSome then none
      else if first.length < (t.reverse.dropWhile isBlank).length then some (scalar first, rest)
      else (plainLines? least 0 first rest).map fun (t, rest) => (scalar t, rest)

mutual
/-- A block whose lines are indented by at least `least`. -/
def block? : Nat → Nat → List Line → Option (Data × List Line)
  | 0, _, _ => none
  | fuel + 1, least, ls => match skipVoid ls with
    | [] => some (.null, [])
    | l :: rest =>
      if l.indent < least then some (.null, l :: rest)
      else if isItem l.text then blockItems? fuel l.indent [] (l :: rest)
      else if (splitKey? l.text).isSome then blockMembers? fuel l.indent [] (l :: rest)
      else leaf? least l.text rest

def blockItems? : Nat → Nat → List Data → List Line → Option (Data × List Line)
  | 0, _, _, _ => none
  | fuel + 1, indent, done, ls => match skipVoid ls with
    | [] => some (.list done.reverse, [])
    | l :: rest =>
      if l.indent = indent && isItem l.text then do
        let body := (l.text.drop 1).dropWhile isBlank
        let ls := if isVoid body then rest else ⟨indent + (l.text.length - body.length), body⟩ :: rest
        let (item, ls) ← block? fuel (indent + 1) ls
        blockItems? fuel indent (item :: done) ls
      else if indent < l.indent then none
      else some (.list done.reverse, l :: rest)

def blockMembers? : Nat → Nat → List (Text × Data) → List Line → Option (Data × List Line)
  | 0, _, _, _ => none
  | fuel + 1, indent, done, ls => match skipVoid ls with
    | [] => some (.table done, [])
    | l :: rest =>
      if l.indent < indent then some (.table done, l :: rest)
      else if indent < l.indent || isItem l.text then none
      else do
        let (key, after) ← splitKey? l.text
        if (done.lookup key).isSome then none
        let (item, ls) ←
          if isVoid after then match skipVoid rest with
            | [] => some (.null, [])
            | next :: _ =>
              if indent < next.indent then block? fuel (indent + 1) rest
              else if next.indent = indent && isItem next.text then blockItems? fuel indent [] rest
              else some (.null, rest)
          else leaf? (indent + 1) (after.dropWhile isBlank) rest
        blockMembers? fuel indent (done ++ [(key, item)]) ls
end

def isMarker (mark : UInt8) (l : Line) : Bool :=
  l.indent = 0 && Text.hasPrefix l.text [mark, mark, mark] && (l.text.drop 3).head?.all isBlank

/-- The lines of the first document. -/
def firstDocument (ls : List Line) : List Line :=
  let body := match ls.dropWhile fun l => isVoid l.text || l.text.head? = some 37 with
    | l :: rest =>
      if isMarker 45 l then Line.ofText (l.text.drop 3) :: rest else ls
    | [] => []
  body.takeWhile fun l => !(isMarker 45 l || isMarker 46 l)

/-- The value of a text. -/
def read? (t : Text) : Option Data :=
  if t.toString?.isNone then none
  else
    let t := if t.hasPrefix [0xEF, 0xBB, 0xBF] then t.drop 3 else t
    let ls := firstDocument ((Text.splitBy 10 t).map Line.ofText)
    if ls.any fun l => l.text.head? = some 9 && !isVoid l.text then none
    else match block? (2 * t.length + 4) 0 ls with
      | some (d, rest) => if (skipVoid rest).isEmpty then some d else none
      | none => none

end DeclPieces.Yaml
