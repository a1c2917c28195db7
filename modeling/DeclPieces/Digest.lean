import DeclPieces.Text

/-! The BLAKE2b digest of 32 bytes, which names the content of a file. -/
namespace DeclPieces.Digest

def initial : List UInt64 :=
  [0x6a09e667f3bcc908, 0xbb67ae8584caa73b, 0x3c6ef372fe94f82b, 0xa54ff53a5f1d36f1,
    0x510e527fade682d1, 0x9b05688c2b3e6c1f, 0x1f83d9abfb41bd6b, 0x5be0cd19137e2179]

/-- The order in which a round takes the words of a block. -/
def schedule : List (List Nat) :=
  [[0, 1, 2, 3, 4, 5, 6, 7, 8, 9, 10, 11, 12, 13, 14, 15],
    [14, 10, 4, 8, 9, 15, 13, 6, 1, 12, 0, 2, 11, 7, 5, 3],
    [11, 8, 12, 0, 5, 2, 15, 13, 10, 14, 3, 6, 7, 1, 9, 4],
    [7, 9, 3, 1, 13, 12, 11, 14, 2, 6, 5, 10, 4, 0, 15, 8],
    [9, 0, 5, 7, 2, 4, 10, 15, 14, 1, 11, 12, 6, 8, 3, 13],
    [2, 12, 6, 10, 0, 11, 8, 3, 4, 13, 7, 5, 15, 14, 1, 9],
    [12, 5, 1, 15, 14, 13, 4, 10, 0, 7, 6, 3, 9, 2, 8, 11],
    [13, 11, 7, 14, 12, 1, 3, 9, 5, 0, 15, 4, 8, 6, 2, 10],
    [6, 15, 14, 9, 11, 3, 0, 8, 12, 2, 13, 7, 1, 4, 10, 5],
    [10, 2, 8, 4, 7, 6, 1, 5, 15, 11, 9, 14, 3, 12, 13, 0],
    [0, 1, 2, 3, 4, 5, 6, 7, 8, 9, 10, 11, 12, 13, 14, 15],
    [14, 10, 4, 8, 9, 15, 13, 6, 1, 12, 0, 2, 11, 7, 5, 3]]

/-- The columns, then the diagonals, of the four by four state. -/
def lanes : List (Nat × Nat × Nat × Nat) :=
  [(0, 4, 8, 12), (1, 5, 9, 13), (2, 6, 10, 14), (3, 7, 11, 15),
    (0, 5, 10, 15), (1, 6, 11, 12), (2, 7, 8, 13), (3, 4, 9, 14)]

def rotateRight (x n : UInt64) : UInt64 := (x >>> n) ||| (x <<< (64 - n))

def word (v : Array UInt64) (i : Nat) : UInt64 := v[i]?.getD 0

/-- Mixes two words of the block into four of the state. -/
def mix (v : Array UInt64) (lane : Nat × Nat × Nat × Nat) (x y : UInt64) : Array UInt64 :=
  let (ia, ib, ic, id) := lane
  let a := word v ia + word v ib + x
  let d := rotateRight (word v id ^^^ a) 32
  let c := word v ic + d
  let b := rotateRight (word v ib ^^^ c) 24
  let a := a + b + y
  let d := rotateRight (d ^^^ a) 16
  let c := c + d
  let b := rotateRight (b ^^^ c) 63
  (((v.setIfInBounds ia a).setIfInBounds ib b).setIfInBounds ic c).setIfInBounds id d

def pairs (m : Array UInt64) : List Nat → List (UInt64 × UInt64)
  | i :: j :: rest => (word m i, word m j) :: pairs m rest
  | _ => []

def round (m v : Array UInt64) (order : List Nat) : Array UInt64 :=
  (lanes.zip (pairs m order)).foldl (fun v (lane, x, y) => mix v lane x y) v

/-- Folds a block into the chain value; `count` is how many bytes are hashed with it. -/
def compress (h : List UInt64) (m : Array UInt64) (count : Nat) (last : Bool) : List UInt64 :=
  let start : Array UInt64 := (h ++ initial).toArray
  let counted := start.setIfInBounds 12 (word start 12 ^^^ UInt64.ofNat count)
  let marked := if last then counted.setIfInBounds 14 (~~~ word counted 14) else counted
  let v := schedule.foldl (round m) marked
  (List.range 8).map fun i => (h[i]?.getD 0) ^^^ word v i ^^^ word v (i + 8)

/-- Little-endian words of eight bytes; missing bytes are zero. -/
def words : Nat → Text → List UInt64
  | 0, _ => []
  | n + 1, t =>
    (t.take 8).foldr (fun b w => (w <<< 8) ||| b.toUInt64) 0 :: words n (t.drop 8)

/-- Hashes the rest of a message of which `before` bytes are done; `fuel` bounds the number of blocks. -/
def blocks (h : List UInt64) (before : Nat) (t : Text) : Nat → List UInt64
  | 0 => h
  | fuel + 1 =>
    let m := (words 16 (t.take 128)).toArray
    if t.length ≤ 128 then compress h m (before + t.length) true
    else blocks (compress h m (before + 128) false) (before + 128) (t.drop 128) fuel

/-- The parameters of an unkeyed digest of 32 bytes. -/
def seeded : List UInt64 :=
  match initial with
  | h :: rest => (h ^^^ 0x01010020) :: rest
  | [] => []

def bytesOf (w : UInt64) : Text :=
  (List.range 8).map fun i => (w >>> UInt64.ofNat (8 * i)).toUInt8

/-- The 32 bytes of the digest. -/
def sum (t : Text) : Text := ((blocks seeded 0 t (t.length / 128 + 1)).take 4).flatMap bytesOf

/-- The digest in hexadecimal. -/
def hash (t : Text) : Text := Text.hex (sum t)

end DeclPieces.Digest
