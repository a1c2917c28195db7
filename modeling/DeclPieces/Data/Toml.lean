import DeclPieces.Calendar
import DeclPieces.Data
import DeclPieces.Number.Literal
import DeclPieces.Text.Rune

/-! Reading TOML line by line: table headers and pairs, in the order in which they are written. -/
namespace DeclPieces.Toml

/-- The edition of the language. The second one has two escapes more, and lets inline tables run over
several lines and end in a comma. -/
inductive Edition where
  | first
  | second
  deriving DecidableEq, Repr

abbrev Key := List Text

inductive Value where
  | scalar (d : Data)
  | list (items : List Value)
  | inline (members : List (Key × Value))

instance : Inhabited Value := ⟨.scalar .null⟩

inductive Entry where
  /-- A table header such as `[a.b]`. -/
  | header (key : Key)
  /-- The header of an element such as `[[a.b]]`. -/
  | element (key : Key)
  | pair (key : Key) (value : Value)

def isBlank (b : UInt8) : Bool := b = 32 || b = 9

def skipBlank (t : Text) : Text := t.dropWhile isBlank

/-- Control characters may stand nowhere, the tab apart. -/
def isControl (b : UInt8) : Bool := (b < 32 && b ≠ 9) || b = 127

/-- What follows a comment, from the end of its line on. -/
def afterComment (t : Text) : Text := t.dropWhile fun b => !isControl b

/-- What follows the end of the line, if only blanks and a comment stand before it. -/
def lineEnd? (t : Text) : Option Text :=
  let t := skipBlank t
  let t := match t with
    | 35 :: rest => afterComment rest
    | t => t
  match t with
  | [] => some []
  | 10 :: rest => some rest
  | 13 :: 10 :: rest => some rest
  | _ => none

/-- Skips blanks, comments and ends of lines; `fuel` bounds the number of lines. -/
def skipLines : Nat → Text → Text
  | 0, t => t
  | fuel + 1, t =>
    match skipBlank t with
    | [] => []
    | b :: rest => match lineEnd? (b :: rest) with
      | some t => skipLines fuel t
      | none => b :: rest

/-! Strings and keys. -/

/-- The character with the given hexadecimal code, a surrogate being none. -/
def codePoint? (digits : Text) : Option Text := do
  let n ← Number.inBase? 16 digits
  if digits.any Number.isUnderscore then none
  else if n.isValidChar then some (Text.ofChars [Char.ofNat n])
  else none

/-- The text of an escape after its backslash, and what follows. -/
def escape? (edition : Edition) : Text → Option (Text × Text)
  | 98 :: rest => some ([8], rest)
  | 116 :: rest => some ([9], rest)
  | 110 :: rest => some ([10], rest)
  | 102 :: rest => some ([12], rest)
  | 114 :: rest => some ([13], rest)
  | 34 :: rest => some ([34], rest)
  | 92 :: rest => some ([92], rest)
  | 101 :: rest => if edition = .second then some ([27], rest) else none
  | 120 :: rest =>
    if edition = .second && 2 ≤ rest.length then (codePoint? (rest.take 2)).map (·, rest.drop 2) else none
  | 117 :: rest => if 4 ≤ rest.length then (codePoint? (rest.take 4)).map (·, rest.drop 4) else none
  | 85 :: rest => if 8 ≤ rest.length then (codePoint? (rest.take 8)).map (·, rest.drop 8) else none
  | _ => none

/-- The body of a string of one line after its opening quote. -/
def basic? (edition : Edition) : Nat → Text → Option (Text × Text)
  | 0, _ => none
  | _, [] => none
  | fuel + 1, b :: rest =>
    if b = 34 then some ([], rest)
    else if b = 92 then do
      let (t, rest) ← escape? edition rest
      let (body, rest) ← basic? edition fuel rest
      return (t ++ body, rest)
    else if isControl b then none
    else (basic? edition fuel rest).map fun (body, rest) => (b :: body, rest)

def literal? (t : Text) : Option (Text × Text) :=
  let body := t.takeWhile fun b => b ≠ 39 && !isControl b
  match t.drop body.length with
  | 39 :: rest => some (body, rest)
  | _ => none

/-- Skips the line break right after an opening quote of several lines. -/
def dropFirstBreak : Text → Text
  | 10 :: rest => rest
  | 13 :: 10 :: rest => rest
  | t => t

/-- Closes a string of several lines: up to two more quotes belong to its body. -/
def closing (quote : UInt8) (rest : Text) : Text × Text :=
  let extra := (rest.take 2).takeWhile (· = quote)
  (extra, rest.drop extra.length)

/-- The body of a string of several lines. In a literal one a backslash stands for itself. -/
def multiline? (edition : Edition) (quote : UInt8) : Nat → Text → Option (Text × Text)
  | 0, _ => none
  | _, [] => none
  | fuel + 1, b :: rest =>
    let continue? (front : Text) (rest : Text) :=
      (multiline? edition quote fuel rest).map fun (body, rest) => (front ++ body, rest)
    if b = quote && Text.hasPrefix rest [quote, quote] then some (closing quote (rest.drop 2))
    else if b = 92 && quote = 34 then
      match lineEnd? rest with
      | some after =>
        if (skipBlank rest).headD 35 = 35 then none
        else continue? [] (after.dropWhile fun b => isBlank b || b = 10 || b = 13)
      | none => (escape? edition rest).bind fun (t, rest) => continue? t rest
    else if b = 10 then continue? [10] rest
    else if b = 13 then (if rest.head? = some 10 then continue? [13] rest else none)
    else if isControl b then none
    else continue? [b] rest

/-- A string at the front, if there is one. -/
def string? (edition : Edition) (t : Text) : Option (Text × Text) :=
  match t with
  | 34 :: 34 :: 34 :: rest => multiline? edition 34 (t.length + 1) (dropFirstBreak rest)
  | 39 :: 39 :: 39 :: rest => multiline? edition 39 (t.length + 1) (dropFirstBreak rest)
  | 34 :: rest => basic? edition (t.length + 1) rest
  | 39 :: rest => literal? rest
  | _ => none

def isBare (b : UInt8) : Bool := Text.isLetter b || Text.isDigit b || b = 95 || b = 45

/-- One part of a key: bare, or a string of one line. -/
def keyPart? (edition : Edition) (t : Text) : Option (Text × Text) :=
  match t with
  | 34 :: rest => basic? edition (t.length + 1) rest
  | 39 :: rest => literal? rest
  | t =>
    let bare := t.takeWhile isBare
    if bare.isEmpty then none else some (bare, t.drop bare.length)

/-- A key: parts with dots between them. -/
def key? (edition : Edition) : Nat → Text → Option (Key × Text)
  | 0, _ => none
  | fuel + 1, t => do
    let (part, rest) ← keyPart? edition (skipBlank t)
    match skipBlank rest with
    | 46 :: rest =>
      let (parts, rest) ← key? edition fuel rest
      return (part :: parts, rest)
    | rest => return ([part], rest)

/-! Scalars. -/

/-- Does every underscore stand between two digits? -/
def underscoresFit (isDigit : UInt8 → Bool) : Text → Bool
  | [] => true
  | [b] => b ≠ 95
  | b :: c :: rest =>
    if c = 95 then isDigit b && rest.head?.any isDigit && underscoresFit isDigit rest
    else b ≠ 95 && underscoresFit isDigit (c :: rest)

def isHexDigit (b : UInt8) : Bool := (Number.digit? b).any (· < 16)

/-- An integer with a base mark, which takes no sign. -/
def based? (t : Text) : Option Int :=
  let read (base : Nat) (digits : Text) : Option Int :=
    if digits.isEmpty || !underscoresFit isHexDigit digits then none
    else (Number.inBase? base digits).map Int.ofNat
  match t with
  | 48 :: 120 :: digits => read 16 digits
  | 48 :: 111 :: digits => read 8 digits
  | 48 :: 98 :: digits => read 2 digits
  | _ => none

def number? (t : Text) : Option Data :=
  match based? t with
  | some i => if Number.fits64 i then some (.int i) else none
  | none =>
    let (negative, digits) := Number.sign t
    let plain := digits.filter (· ≠ 95)
    if !underscoresFit Text.isDigit digits || plain.head? = some 45 || !Number.isProper plain then none
    else match Text.toNat? plain with
      | some n =>
        let i := Number.signed negative n
        if Number.fits64 i then some (.int i) else none
      | none => (Number.float? plain).map fun x => .float (if negative then -x else x)

/-- The number that two digits at the front make. -/
def twoDigits? : Text → Option (Nat × Text)
  | a :: b :: rest => (Text.toNat? [a, b]).map (·, rest)
  | _ => none

/-- What follows a date. -/
def afterDate? (t : Text) : Option Text := do
  let year ← Text.toNat? (t.take 4)
  if (t.take 4).length < 4 then none
  match t.drop 4 with
  | 45 :: t =>
    let (month, t) ← twoDigits? t
    match t with
    | 45 :: t =>
      let (day, t) ← twoDigits? t
      if Date.isReal ⟨year, month, day⟩ then some t else none
    | _ => none
  | _ => none

/-- What follows a time of day. -/
def afterTime? (edition : Edition) (t : Text) : Option Text := do
  let (hour, t) ← twoDigits? t
  match t with
  | 58 :: t =>
    let (minute, t) ← twoDigits? t
    if 24 ≤ hour ∨ 60 ≤ minute then none
    match t with
    | 58 :: t =>
      let (second, t) ← twoDigits? t
      if 60 ≤ second then none
      match t with
      | 46 :: t => if t.head?.any Text.isDigit then some (t.dropWhile Text.isDigit) else none
      | t => some t
    | t => if edition = .second then some t else none
  | _ => none

/-- Is this the end of a time, with or without its distance from universal time? -/
def isOffset (t : Text) : Bool :=
  match t with
  | [] | [90] | [122] => true
  | [s, a, b, 58, c, d] =>
    (s = 43 || s = 45) && (Text.toNat? [a, b]).any (· < 24)
      && (Text.toNat? [c, d]).any (· < 60)
  | _ => false

def isMoment (edition : Edition) (t : Text) : Bool :=
  match afterDate? t with
  | some [] => true
  | some (b :: rest) =>
    (b = 84 || b = 116 || b = 32) && (afterTime? edition rest).any isOffset
  | none => (afterTime? edition t).any List.isEmpty

/-- A value that is written in one word. -/
def word? (edition : Edition) (t : Text) : Option Data :=
  let infinity : Float := 1.0 / 0.0
  let words : List (Text × Data) :=
    [("true", .bool true), ("false", .bool false), ("inf", .float infinity), ("+inf", .float infinity),
      ("-inf", .float (-infinity)), ("nan", .float (0.0 / 0.0)), ("+nan", .float (0.0 / 0.0)),
      ("-nan", .float (0.0 / 0.0))]
  match words.lookup t with
  | some d => some d
  | none => if isMoment edition t then some (.moment t) else number? t

def isWordByte (b : UInt8) : Bool := !(isBlank b || isControl b || b = 44 || b = 93 || b = 125 || b = 35)

/-- The word at the front. A blank may stand between a date and a time. -/
def word (t : Text) : Text :=
  let front := t.takeWhile isWordByte
  match t.drop front.length with
  | 32 :: d :: rest =>
    if afterDate? front = some [] && Text.isDigit d then front ++ 32 :: (d :: rest).takeWhile isWordByte else front
  | _ => front

/-! Values and entries. -/

mutual
/-- A value at the front; `fuel` bounds how deep and how wide it is. -/
def value? (edition : Edition) : Nat → Text → Option (Value × Text)
  | 0, _ => none
  | fuel + 1, t => match t with
    | 91 :: rest => items? edition fuel [] rest
    | 123 :: rest => members? edition fuel true [] rest
    | 34 :: _ | 39 :: _ => (string? edition t).map fun (s, rest) => (.scalar (.text s), rest)
    | t =>
      let w := word t
      (word? edition w).map fun d => (.scalar d, t.drop w.length)

/-- The items of a list after those read before, kept in reverse. -/
def items? (edition : Edition) : Nat → List Value → Text → Option (Value × Text)
  | 0, _, _ => none
  | fuel + 1, done, t => match skipLines t.length t with
    | 93 :: rest => some (.list done.reverse, rest)
    | t => do
      let (item, t) ← value? edition fuel t
      match skipLines t.length t with
      | 44 :: rest => items? edition fuel (item :: done) rest
      | 93 :: rest => some (.list (item :: done).reverse, rest)
      | _ => none

/-- The members of an inline table; `mayEnd` says if it may close here. -/
def members? (edition : Edition) : Nat → Bool → List (Key × Value) → Text → Option (Value × Text)
  | 0, _, _, _ => none
  | fuel + 1, mayEnd, done, t =>
    let skip (t : Text) : Text := if edition = .second then skipLines t.length t else skipBlank t
    match skip t with
    | 125 :: rest => if mayEnd then some (.inline done.reverse, rest) else none
    | t => do
      let (key, t) ← key? edition (t.length + 1) t
      match t with
      | 61 :: t =>
        let (item, t) ← value? edition fuel (skipBlank t)
        match skip t with
        | 44 :: rest => members? edition fuel (edition = .second) ((key, item) :: done) rest
        | 125 :: rest => some (.inline ((key, item) :: done).reverse, rest)
        | _ => none
      | _ => none
end

/-- A header or pair at the front. -/
def line? (edition : Edition) (t : Text) : Option (Entry × Text) :=
  match t with
  | 91 :: 91 :: rest => do
    let (key, rest) ← key? edition (t.length + 1) rest
    match rest with
    | 93 :: 93 :: rest => return (.element key, rest)
    | _ => none
  | 91 :: rest => do
    let (key, rest) ← key? edition (t.length + 1) rest
    match rest with
    | 93 :: rest => return (.header key, rest)
    | _ => none
  | t => do
    let (key, rest) ← key? edition (t.length + 1) t
    match rest with
    | 61 :: rest =>
      let (value, rest) ← value? edition (2 * t.length + 2) (skipBlank rest)
      return (.pair key value, rest)
    | _ => none

def entries? (edition : Edition) : Nat → Text → Option (List Entry)
  | 0, _ => none
  | fuel + 1, t => match skipLines t.length t with
    | [] => some []
    | t => do
      let (e, rest) ← line? edition t
      let rest ← lineEnd? rest
      let es ← entries? edition fuel rest
      return e :: es

/-- The entries of a text, if it is well formed. -/
def read? (edition : Edition) (t : Text) : Option (List Entry) :=
  if t.toString?.isSome then entries? edition (t.length + 1) t else none

end DeclPieces.Toml
