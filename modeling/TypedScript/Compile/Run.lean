import TypedScript.Compile.Unit
import TypedScript.Machine.Run

/-!
# Running compilation units

A unit that was compiled for the machine is run from its entry. Declared functions without a result print their
arguments; others are not provided. A run is good only if every object was given back.
-/

namespace TypedScript.Compile

open TypedScript.Machine

structure RunOptions where
  /-- The number of instructions that may be executed; zero for no limit. -/
  maxSteps : Nat := 0
  isTraced : Bool := false
  isCancelled : Bool := false

/-- Why a run is not good. -/
inductive RunError where
  | notLowered
  | cancelled
  | failed (path : String) (f : Failure)
  | noEntry (path name : String)

def RunError.message : RunError → String
  | notLowered => "unit was not lowered for the interpreter"
  | cancelled => "context canceled"
  | failed path f => s!"run {path}: {f.text}"
  | noEntry path name => s!"run {path}: function " ++ Text.quote name ++ " not found"

def RunError.failure? : RunError → Option Failure
  | failed _ f => some f
  | _ => none

/-- The host's functions for a unit: the allocator, and a printer for every declared function without a result. -/
def hostsFor (u : Unit) (m : Module) : List (String × Host) :=
  let hooks := [u.hooks.allocate, u.hooks.release]
  let printers := m.functions.toList.filter fun f =>
    !f.isDefined && !hooks.contains f.name && f.sig.ret == (Ir.Scalar.void : Ir.Ty)
  printers.map (fun f => (f.name, Host.print)) ++ allocatorHosts u.hooks.allocate u.hooks.release

/-- Runs a unit. The state at the end is there if the run began. -/
def run (o : RunOptions) (u : Unit) : Option State × Option RunError :=
  match u.code, u.lowered with
  | some (.machine m), some _ =>
    if o.isCancelled then (none, some .cancelled)
    else
      let c : Config := { module := m, hosts := hostsFor u m, limit := o.maxSteps, isTraced := o.isTraced }
      match Machine.run c u.hooks.entry [] with
      | (.failure f, s) => (some s, some (.failed u.path f))
      | (.noFunction name, s) => (some s, some (.noEntry u.path name))
      | (.value _, s) =>
        match s.memory.checkBalanced with
        | .ok () => (some s, none)
        | .error f => (some s, some (.failed u.path f))
  | _, _ => (none, some .notLowered)

end TypedScript.Compile
