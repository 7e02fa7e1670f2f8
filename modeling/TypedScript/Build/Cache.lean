import TypedScript.Compile.Unit
import TypedScript.Digest.Sha256
import TypedScript.Files.Disk
import TypedScript.Text.Utf8

/-!
# The cache of a build

The modules that were compiled are kept in a directory, under a key that is computed from the source and the
settings that matter to it. An entry says by which compiler it was written; entries of others, and those that
cannot be read, count as missing. Nothing that goes wrong with the cache harms a build.

In what form entries are written is up to a codec.
-/

namespace TypedScript.Build

open TypedScript.Files

/-- A function of a module that is kept. -/
structure KeptFunction where
  name : String
  isPure : Bool
  deriving DecidableEq, Inhabited, Repr

/-- What is kept of a unit. -/
structure Payload where
  /-- The version of the form that payloads have. -/
  schema : Nat := 0
  /-- The version of the compiler that wrote the payload. -/
  compiler : String := ""
  sourcePath : String := ""
  /-- The digest of the source. -/
  sourceHash : List UInt8 := []
  entry : String := ""
  ir : String := ""
  functions : List KeptFunction := []
  objects : Nat := 0
  layouts : List String := []
  deriving DecidableEq, Inhabited, Repr

namespace Payload

/-- The version of the form that payloads have now. -/
def currentSchema : Nat := 1

/-- What is kept of a unit that was compiled. -/
def ofUnit (u : Compile.Unit) : Payload :=
  let p : Payload := { sourcePath := u.path, sourceHash := u.file.digest, entry := u.hooks.entry, ir := u.ir }
  match u.lowered with
  | none => p
  | some st =>
    { p with functions := st.functions.map fun f => ⟨f.name, f.isPure⟩, objects := st.objects,
             layouts := st.registry.all.map (·.render) }

end Payload

/-- A way of writing payloads as bytes. -/
structure Codec where
  encode : Payload → List UInt8
  decode? : List UInt8 → Option Payload

namespace Codec

/-- Parts, one after another. A one goes before every byte of a part, and a zero ends it. -/
def writeParts (parts : List (List UInt8)) : List UInt8 := parts.flatMap fun part => part.flatMap ([1, ·]) ++ [0]

/-- Reads parts. The part at hand and those before it are given backwards. -/
def readParts (part : List UInt8) (before : List (List UInt8)) : List UInt8 → Option (List (List UInt8))
  | [] => if part.isEmpty then some before.reverse else none
  | 0 :: rest => readParts [] (part.reverse :: before) rest
  | 1 :: b :: rest => readParts (b :: part) before rest
  | _ => none

def readText (part : List UInt8) : Option String := (Text.decode? part).map String.ofList

/-- The parts of a payload. A number is as many zeros, and what a payload has several of bears a sign. -/
def parts (p : Payload) : List (List UInt8) :=
  [List.replicate p.schema 0, Text.encode p.compiler, Text.encode p.sourcePath, p.sourceHash, Text.encode p.entry,
    Text.encode p.ir, List.replicate p.objects 0] ++
    p.functions.map (fun f => (if f.isPure then 1 else 0) :: Text.encode f.name) ++
      p.layouts.map (2 :: Text.encode ·)

/-- Adds a part that a payload may have several of. -/
def addPart (p : Payload) : List UInt8 → Option Payload
  | 0 :: name => (readText name).map fun name => { p with functions := p.functions ++ [⟨name, false⟩] }
  | 1 :: name => (readText name).map fun name => { p with functions := p.functions ++ [⟨name, true⟩] }
  | 2 :: text => (readText text).map fun text => { p with layouts := p.layouts ++ [text] }
  | _ => none

def ofParts : List (List UInt8) → Option Payload
  | schema :: compiler :: sourcePath :: sourceHash :: entry :: ir :: objects :: rest => do
    let p : Payload :=
      { schema := schema.length, compiler := ← readText compiler, sourcePath := ← readText sourcePath, sourceHash,
        entry := ← readText entry, ir := ← readText ir, objects := objects.length }
    rest.foldlM addPart p
  | _ => none

/-- A codec that will do. -/
def plain : Codec where
  encode p := writeParts (parts p)
  decode? bytes := (readParts [] [] bytes).bind ofParts

end Codec

/-- A cache in a directory, for one version of the compiler. -/
structure Cache where
  dir : String
  compiler : String
  deriving Inhabited, Repr

namespace Cache

/-- The key of a source. `settings` are all the settings that its module depends on. -/
def key (source : List UInt8) (settings : List String) : List UInt8 :=
  Digest.combine (Digest.sha256 source) [Digest.sha256 (Text.encode ("\x00".intercalate settings))]

/-- The file of a key. Keys are spread over directories by their first byte. -/
def pathOf (c : Cache) (key : List UInt8) : String :=
  let name := Digest.hex key
  Path.join [c.dir, "units", (name.take 2).toString, name ++ ".mp"]

/-- A payload as it is kept: it tells the two versions. -/
def sign (c : Cache) (p : Payload) : Payload := { p with schema := Payload.currentSchema, compiler := c.compiler }

variable {m : Type → Type} [Monad m] [Disk m]

/-- Opens the cache in a directory, which is made if it is missing. -/
def openIn (compiler dir : String) : ExceptT Failure m Cache := do
  makeDirs dir
  return { dir, compiler }

/-- What is kept under a key. -/
def get? (c : Cache) (codec : Codec) (key : List UInt8) : m (Option Payload) := do
  match ← Disk.read (c.pathOf key) with
  | .error _ => return none
  | .ok bytes =>
    match codec.decode? bytes with
    | some p => return if p.schema = Payload.currentSchema ∧ p.compiler = c.compiler then some p else none
    | none => return none

/-- Keeps a payload under a key. -/
def put (c : Cache) (codec : Codec) (key : List UInt8) (p : Payload) : m PUnit := do
  let path := c.pathOf key
  match ← (makeDirs (m := m) (Path.dir path)).run with
  | .error _ => return
  | .ok _ =>
    let _ ← Disk.write path (codec.encode (c.sign p))
    return

end Cache

end TypedScript.Build
