import TypedScript.Llvm.Text
import TypedScript.Machine.Module

/-!
# Code under construction

Commands are carried out for one of two backends: the machine that runs here, or LLVM.
-/

namespace TypedScript.Compile

open TypedScript.Ir

inductive Code where
  | machine (m : Machine.Module)
  | llvm (m : Llvm.Module)
  deriving Inhabited

namespace Code

/-- Carries out a command. -/
def apply : Code → Command → Except Fault Code
  | machine m, c => (m.apply c).map machine
  | llvm m, c => (m.apply c).map llvm

/-- Carries out commands in order. -/
def applyAll (code : Code) (cs : Array Command) : Except Fault Code := cs.foldlM apply code

/-- Whether no instruction can be appended to the block at hand. -/
def isEnded : Code → Bool
  | machine m => m.isEnded
  | llvm m => m.isEnded

/-- The name of the block at hand. -/
def blockName? : Code → Option String
  | machine m => m.block?.map (·.name)
  | llvm m => m.block?.map (·.name)

/-- The names of the blocks of the function being defined. -/
def blockNames : Code → List String
  | machine m => (m.function?.getD default).blocks.toList.map (·.name)
  | llvm m => (m.function?.getD default).blocks.toList.map (·.name)

/-- The types of the registers of the function being defined. -/
def registers : Code → List Ir.Ty
  | machine m => (m.function?.getD default).registers.toList
  | llvm m => (m.function?.getD default).registers.toList.map (·.type)

/-- The signature of a declared function. -/
def sig? : Code → String → Option Sig
  | machine m, name => (m.find? name).map (·.sig)
  | llvm m, name => (m.find? name).map (·.sig)

/-- The name of a function, as the backend shows it. -/
def shownName : Code → String → String
  | machine _, name => name
  | llvm _, name => Llvm.shownName name

end Code

end TypedScript.Compile
