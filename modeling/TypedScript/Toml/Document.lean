/-!
# TOML documents

A document is a table of tables and values. Keys are defined as the text is read: a table header or a dotted key
makes the tables it passes through, which may be defined in their own right once, and all other keys are defined
only once, unless their value is an array. Tables are kept by number, so that what is added to a table shows
wherever it stands.
-/

namespace TypedScript.Toml

inductive Value where
  | string (s : String)
  | integer (n : Int)
  | float
  | boolean (b : Bool)
  | moment
  | array
  /-- The table with the given number. -/
  | table (number : Nat)
  /-- An array of tables that is written header by header, with the number of the last one. -/
  | tables (last : Nat)
  deriving Inhabited, DecidableEq, Repr

/-- The members of a table, in the order in which they were defined. -/
abbrev Table := List (String × Value)

/-- The names that lead from the root to a value. -/
abbrev Key := List String

/-! ### Keys as text -/

/-- Whether a character may stand in a name without quotes. -/
def isBareChar (c : Char) : Bool := c.isAlphanum || c = '_' || c = '-'

def hexDigitOf (n : Nat) : Char := if n < 10 then Char.ofNat (48 + n) else Char.ofNat (87 + n)

/-- A character between quotes. -/
def escapeChar (c : Char) : List Char :=
  match c with
  | '"' => ['\\', '"']
  | '\\' => ['\\', '\\']
  | '\t' => ['\\', 't']
  | '\n' => ['\\', 'n']
  | '\r' => ['\\', 'r']
  | c =>
    let n := c.toNat
    if n = 8 then ['\\', 'b']
    else if n = 12 then ['\\', 'f']
    else if n < 0x20 || n = 0x7F then ['\\', 'u', '0', '0', hexDigitOf (n / 16), hexDigitOf (n % 16)]
    else [c]

/-- A name, between quotes if it has to be. -/
def nameText (s : String) : String :=
  if s ≠ "" && s.toList.all isBareChar then s
  else String.ofList ('"' :: s.toList.flatMap escapeChar ++ ['"'])

def keyText (k : Key) : String := ".".intercalate (k.map nameText)

/-! ### Tables -/

/-- The table with a member set, in its old place if it was there. -/
def Table.put (t : Table) (name : String) (v : Value) : Table :=
  if t.any (·.1 = name) then t.map fun m => if m.1 = name then (name, v) else m else t ++ [(name, v)]

/-! ### Documents -/

/-- What has been read of a document. -/
structure Document where
  /-- The tables by number. The first one is the root. -/
  tables : Array Table := #[[]]
  /-- The keys that were written, in order. -/
  order : List Key := []
  /-- The tables that were only passed through so far. -/
  implied : List Key := []
  /-- The keys whose value is an array. -/
  arrays : List Key := []
  /-- The table that keys are defined in. -/
  context : Key := []
  deriving Inhabited

namespace Document

/-- The members of a table. -/
def table (d : Document) (number : Nat) : Table := d.tables.getD number []

/-- The table that a path leads to. A path leads through tables and the last elements of arrays of tables. -/
def locate (d : Document) (path : Key) : Option Nat :=
  path.foldlM (fun number name =>
    match (d.table number).lookup name with
    | some (.table next) | some (.tables next) => some next
    | _ => none) 0

/-- The value of a key, if the path to it leads through tables alone. -/
def get? (d : Document) (key : Key) : Option Value :=
  key.foldlM (fun v name =>
    match v with
    | .table number => (d.table number).lookup name
    | _ => none) (.table 0)

/-- Sets a member of a table. -/
def put (d : Document) (number : Nat) (name : String) (v : Value) : Document :=
  { d with tables := d.tables.modify number (·.put name v) }

/-- Makes a table. -/
def make (d : Document) (members : Table) : Nat × Document :=
  (d.tables.size, { d with tables := d.tables.push members })

def isImplied (d : Document) (k : Key) : Bool := d.implied.contains k

/-- Marks a table as passed through. -/
def imply (d : Document) (k : Key) : Document := if d.isImplied k then d else { d with implied := k :: d.implied }

def unimply (d : Document) (k : Key) : Document := { d with implied := d.implied.filter (· ≠ k) }

/-- The key under which it is remembered whether a value is an array. A value with the empty name stands for the
table it is in. -/
def kindKey (context : Key) (name : String) : Key :=
  if name ≠ "" then context ++ [name] else if context.isEmpty then [""] else context

/-- Remembers whether the value of a name is an array. -/
def markArray (d : Document) (name : String) (isArray : Bool) : Document :=
  let k := kindKey d.context name
  let others := d.arrays.filter (· ≠ k)
  { d with arrays := if isArray then k :: others else others }

/-- Defines a key of the table at hand. An array may be replaced, and a table that was passed through stays as it
is; any other key that is taken is an error. -/
def define (d : Document) (name : String) (v : Value) : Option Document := do
  let key := d.context ++ [name]
  let number ← d.locate d.context
  if (d.table number).any (·.1 = name) then
    if d.arrays.contains key then return (d.unimply key).put number name v
    else if d.isImplied key then return d.unimply key
    else none
  else return d.put number name v

/-- Makes the tables on the way to a key. -/
def enterParents (d : Document) : Key → Key → Option Document
  | _, [] => some d
  | _, [_] => some d
  | done, name :: rest => do
    let here := done ++ [name]
    let number ← d.locate done
    let d := if (d.table number).any (·.1 = name) then d
      else
        let (inner, d) := (d.imply here).make []
        d.put number name (.table inner)
    -- what was there has to be a table
    let _ ← d.locate here
    enterParents d here rest

/-- Goes to the table with the given key, which is defined here. -/
def enterTable (d : Document) (key : Key) : Option Document := do
  let (number, d) := (← d.enterParents [] key).make []
  let d ← { d with context := key.dropLast }.define (key.getLastD "") (.table number)
  return { d with context := key }

/-- Goes to a new element of an array of tables. -/
def enterElement (d : Document) (key : Key) : Option Document := do
  let (element, d) := (← d.enterParents [] key).make []
  let number ← d.locate key.dropLast
  let name := key.getLastD ""
  match (d.table number).lookup name with
  | none | some (.tables _) => return { d.put number name (.tables element) with context := key }
  | some _ => none

/-- Goes through the tables of a dotted key. -/
def enterDotted (d : Document) : List String → Option Document
  | [] => some d
  | name :: rest => do
    let key := d.context ++ [name]
    let d ← (d.imply key).enterTable key
    enterDotted d rest

end Document

end TypedScript.Toml
