import TypedScript.Build.Stage
import TypedScript.Files.Disk

/-!
# Work in small steps

The units of a build are worked on at the same time. What is done for a unit is therefore written down step by
step: the unit tells how it stands, or it asks something of the disk and goes on in a way that depends on the
answer. Between two steps of one unit the others may do any number of theirs.
-/

namespace TypedScript.Build

open TypedScript.Files

/-- What is asked of a disk. -/
inductive Query where
  | workDir
  | kind (path : String)
  | read (path : String)
  | write (path : String) (bytes : List UInt8)
  | makeDir (path : String)
  | names (path : String)
  deriving DecidableEq, Repr

namespace Query

/-- What a disk answers. -/
def Answer : Query → Type
  | workDir => String
  | kind _ => Except Cause Kind
  | read _ => Except Cause (List UInt8)
  | write _ _ => Except Cause PUnit
  | makeDir _ => Except Cause PUnit
  | names _ => Except Cause (List String)

/-- Asks a disk. -/
def ask {m : Type → Type} [Disk m] : (q : Query) → m q.Answer
  | workDir => Disk.workDir
  | kind path => Disk.kind path
  | read path => Disk.read path
  | write path bytes => Disk.write path bytes
  | makeDir path => Disk.makeDir path
  | names path => Disk.names path

end Query

/-- What there is to do, step by step. -/
inductive Work (α : Type) where
  | done (a : α)
  | tell (e : Event) (rest : Work α)
  | ask (q : Query) (next : q.Answer → Work α)

namespace Work

variable {α β : Type}

def bind : Work α → (α → Work β) → Work β
  | done a, f => f a
  | tell e rest, f => tell e (rest.bind f)
  | ask q next, f => ask q fun answer => (next answer).bind f

instance : Monad Work where
  pure := done
  bind := bind

instance : Disk Work where
  workDir := ask .workDir done
  kind path := ask (.kind path) done
  read path := ask (.read path) done
  write path bytes := ask (.write path bytes) done
  makeDir path := ask (.makeDir path) done
  names path := ask (.names path) done

/-- Does all there is to do on a disk. What is told is added to what was told before. -/
def perform {m : Type → Type} [Monad m] [Disk m] : Work α → StateT (List Event) m α
  | done a => pure a
  | tell e rest => do
    modify (· ++ [e])
    rest.perform
  | ask q next => do
    let answer ← q.ask (m := m)
    (next answer).perform

end Work

end TypedScript.Build
