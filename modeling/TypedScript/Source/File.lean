import TypedScript.Digest.Sha256
import TypedScript.Order.Sorted
import TypedScript.Source.Span
import TypedScript.Text.Path
import TypedScript.Text.Utf8

/-!
# Source files

A file keeps its bytes in a normal form (no byte order mark, lines ended by a line feed alone) together with the
offset at which every line starts, which is what turns offsets into positions.
-/

namespace TypedScript.Source

/-- A line and a column, both counted from one; columns count bytes. -/
structure Position where
  line : Nat
  column : Nat
  deriving DecidableEq, Inhabited, Repr

/-- The marks a file carries, as bits. -/
abbrev Flags := UInt8

/-- Marks a file that was given from memory. -/
def Flags.inMemory : Flags := 1

/-- Marks a file whose byte order mark was dropped. -/
def Flags.hadByteOrderMark : Flags := 2

/-- Marks a file in which line ends were normalised. -/
def Flags.normalisedLineEnds : Flags := 4

structure File where
  id : Nat := 0
  path : String := ""
  content : List UInt8 := []
  /-- The offset of the first byte of every line. -/
  lineStarts : List Nat := []
  flags : Flags := 0
  deriving Inhabited

def lineFeed : UInt8 := 10

/-- Replaces every carriage return that precedes a line feed by nothing. -/
def foldLineEnds : List UInt8 → List UInt8
  | 13 :: 10 :: rest => 10 :: foldLineEnds rest
  | b :: rest => b :: foldLineEnds rest
  | [] => []

/-- Whether a carriage return precedes a line feed anywhere. -/
def hasFoldableLineEnd : List UInt8 → Bool
  | 13 :: 10 :: _ => true
  | _ :: rest => hasFoldableLineEnd rest
  | [] => false

/-- The normal form of the bytes of a file, with the marks that say what was changed. -/
def normalise (raw : List UInt8) : List UInt8 × Flags :=
  let (raw, bom) := match raw with
    | 0xEF :: 0xBB :: 0xBF :: rest => (rest, Flags.hadByteOrderMark)
    | _ => (raw, 0)
  if hasFoldableLineEnd raw then (foldLineEnds raw, bom ||| Flags.normalisedLineEnds) else (raw, bom)

/-- The offsets after every line feed of a text that begins at offset `off`, up to the first one that is no word. -/
def offsetsAfterLineFeeds (off : Nat) : List UInt8 → List Nat
  | [] => []
  | b :: rest =>
    if b = lineFeed then
      if off + 1 < offsetLimit then (off + 1) :: offsetsAfterLineFeeds (off + 1) rest else []
    else offsetsAfterLineFeeds (off + 1) rest

/-- The offset of the first byte of every line. -/
def lineStartsOf (content : List UInt8) : List Nat :=
  0 :: offsetsAfterLineFeeds 0 content

namespace File

/-- The file with the given bytes, taken as they are. -/
def ofContent (id : Nat) (path : String) (content : List UInt8) (flags : Flags) : File :=
  { id, path := Path.clean path, content, lineStarts := lineStartsOf content, flags }

/-- The SHA-256 digest of the content. -/
def digest (f : File) : List UInt8 :=
  Digest.sha256 f.content

/-- The number of the lines that start at or before an offset, if the lines start in order. -/
def lineAt (f : File) (off : Nat) : Nat :=
  Order.search (fun i => (f.lineStarts[i]?).any (· ≤ off)) 0 f.lineStarts.length

/-- The position of an offset: the line is the last one that starts at or before it. A line feed belongs to the
line it ends. Lines and columns are words. -/
def position (f : File) (off : Nat) : Position :=
  let line := f.lineAt off
  if line = 0 || offsetLimit ≤ line then ⟨1, (off + 1) % offsetLimit⟩
  else ⟨line, (off - f.lineStarts.getD (line - 1) 0 + 1) % offsetLimit⟩

/-- The offset of a position; `none` if there is no such line. -/
def offset? (f : File) (p : Position) : Option Nat :=
  if p.line = 0 then none else (f.lineStarts[p.line - 1]?).map (· + (p.column - 1))

/-- The bytes from offset `start` up to offset `stop`. -/
def slice (f : File) (start stop : Nat) : List UInt8 :=
  (f.content.drop start).take (stop - start)

/-- The offset at which a line ends: that of its line feed, or the end of the content. -/
def lineEnd (f : File) (n : Nat) : Nat :=
  match f.lineStarts[n]? with
  | some next => next - 1
  | none => f.content.length

/-- The bytes of a line without its line feed; empty if there is no such line. -/
def line (f : File) (n : Nat) : List UInt8 :=
  if n = 0 then []
  else
    match f.lineStarts[n - 1]? with
    | none => []
    | some start =>
      let stop := f.lineEnd n
      if stop < start || f.content.length < stop then [] else f.slice start stop

end File

/-- The files of one session; a file's number is its place. -/
structure FileSet where
  files : Array File := #[]
  deriving Inhabited

namespace FileSet

/-- Adds a file whose bytes are already in normal form. -/
def add (s : FileSet) (path : String) (content : List UInt8) (flags : Flags) : FileSet × Nat :=
  let id := s.files.size
  (⟨s.files.push (.ofContent id path content flags)⟩, id)

/-- Adds a file from its raw bytes. -/
def addRaw (s : FileSet) (path : String) (raw : List UInt8) (flags : Flags) : FileSet × Nat :=
  let (content, found) := normalise raw
  s.add path content (found ||| flags)

/-- Adds a file given from memory. -/
def addVirtual (s : FileSet) (path : String) (raw : List UInt8) : FileSet × Nat :=
  s.addRaw path raw Flags.inMemory

def get? (s : FileSet) (id : Nat) : Option File := s.files[id]?

/-- The positions of both ends of a span; `1:1` for a file that is not in the set. -/
def resolve (s : FileSet) (span : Span) : Position × Position :=
  match s.files[span.file]? with
  | none => (⟨1, 1⟩, ⟨1, 1⟩)
  | some f => (f.position span.start, f.position span.stop)

end FileSet

end TypedScript.Source
