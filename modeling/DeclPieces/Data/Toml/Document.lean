import DeclPieces.Data.Toml

/-! The tables that the entries of a TOML text make. No table and no value may be defined twice. -/
namespace DeclPieces.Toml

/-- How a table came to be. -/
inductive Origin where
  /-- As the parent of a table with a header. -/
  | implied
  /-- By a header of its own. -/
  | header
  /-- By the dots of a key. -/
  | dotted
  deriving DecidableEq, Repr

inductive Node where
  /-- A value, complete as it stands. -/
  | value (d : Data)
  | table (origin : Origin) (members : List (Text × Node))
  /-- The elements that headers made, the last one first. -/
  | elements (tables : List (List (Text × Node)))

instance : Inhabited Node := ⟨.value .null⟩

abbrev Members := List (Text × Node)

/-- Sets a member; one of that name is replaced where it stands. -/
def Members.set (key : Text) (node : Node) : Members → Members
  | [] => [(key, node)]
  | (k, n) :: rest => if k = key then (key, node) :: rest else (k, n) :: Members.set key node rest

/-- Changes the table that a header names, and makes those on the way. -/
def Members.within (f : Members → Option Members) : Key → Members → Option Members
  | [], m => f m
  | k :: rest, m =>
    match m.lookup k with
    | none => do
      let inner ← Members.within f rest []
      return m.set k (.table .implied inner)
    | some (.table origin inner) => do
      let inner ← Members.within f rest inner
      return m.set k (.table origin inner)
    | some (.elements (last :: before)) => do
      let last ← Members.within f rest last
      return m.set k (.elements (last :: before))
    | some _ => none

/-- Defines a table by its header. -/
def Members.define (k : Text) (m : Members) : Option Members :=
  match m.lookup k with
  | none => some (m.set k (.table .header []))
  | some (.table .implied inner) => some (m.set k (.table .header inner))
  | some _ => none

/-- Opens one more element. -/
def Members.extend (k : Text) (m : Members) : Option Members :=
  match m.lookup k with
  | none => some (m.set k (.elements [[]]))
  | some (.elements tables) => some (m.set k (.elements ([] :: tables)))
  | some _ => none

/-- Puts a value at a dotted key. -/
def Members.assign (d : Data) : Key → Members → Option Members
  | [], _ => none
  | [k], m => match m.lookup k with
    | none => some (m.set k (.value d))
    | some _ => none
  | k :: next :: rest, m => match m.lookup k with
    | none => do
      let inner ← Members.assign d (next :: rest) []
      return m.set k (.table .dotted inner)
    | some (.table .dotted inner) => do
      let inner ← Members.assign d (next :: rest) inner
      return m.set k (.table .dotted inner)
    | some _ => none

mutual
def Node.data : Node → Data
  | .value d => d
  | .table _ members => .table (membersData members)
  | .elements tables => .list (tablesData tables).reverse

def membersData : List (Text × Node) → List (Text × Data)
  | [] => []
  | (k, n) :: rest => (k, n.data) :: membersData rest

def tablesData : List (List (Text × Node)) → List Data
  | [] => []
  | m :: rest => .table (membersData m) :: tablesData rest
end

mutual
def Value.data? : Value → Option Data
  | .scalar d => some d
  | .list items => (itemsData? items).map .list
  | .inline members => (inlineMembers? members).map fun m => .table (membersData m)

def itemsData? : List Value → Option (List Data)
  | [] => some []
  | v :: rest => do
    let d ← v.data?
    let ds ← itemsData? rest
    return d :: ds

/-- The members of an inline table, the last one of the list first. -/
def inlineMembers? : List (Key × Value) → Option Members
  | [] => some []
  | (k, v) :: rest => do
    let d ← v.data?
    let m ← inlineMembers? rest
    m.assign d k
end

/-- The table that the entries make, after those in `m`; `here` is the table under the last header. -/
def build? (here : Key) (m : Members) : List Entry → Option Members
  | [] => some m
  | .header key :: rest => do
    let m ← m.within (Members.define (key.getLastD [])) key.dropLast
    build? key m rest
  | .element key :: rest => do
    let m ← m.within (Members.extend (key.getLastD [])) key.dropLast
    build? key m rest
  | .pair key v :: rest => do
    let d ← v.data?
    let m ← m.within (Members.assign d key) here
    build? here m rest

/-- The value of a text: a table. -/
def document? (es : List Entry) : Option Data := (build? [] [] es).map fun m => .table (membersData m)

mutual
/-- The keys that a value at `base` defines. -/
def Value.keys (base : Key) : Value → List Key
  | .scalar _ => []
  | .list items => itemsKeys base items
  | .inline members => memberKeys base members

def itemsKeys (base : Key) : List Value → List Key
  | [] => []
  | v :: rest => v.keys base ++ itemsKeys base rest

def memberKeys (base : Key) : List (Key × Value) → List Key
  | [] => []
  | (k, v) :: rest => (base ++ k) :: v.keys (base ++ k) ++ memberKeys base rest
end

/-- The keys written in a text, each in full, as often as they are written. -/
def keys (here : Key) : List Entry → List Key
  | [] => []
  | .header key :: rest | .element key :: rest => key :: keys key rest
  | .pair key v :: rest => (here ++ key) :: v.keys (here ++ key) ++ keys here rest

end DeclPieces.Toml
