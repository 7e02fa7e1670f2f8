import Std.Data.TreeMap
import TypedScript.Ast.Tree

/-!
# Bindings

A table says which declaration every use of a name refers to. Values and types have separate names.
-/

namespace TypedScript.Binding

open TypedScript.Ast

/-- What a declaration declares. -/
inductive SymbolKind where
  | invalid
  | letBinding
  | constBinding
  | param
  | function
  /-- A function that the host provides. -/
  | foreign
  | type
  deriving DecidableEq, Inhabited, Repr

namespace SymbolKind

def name : SymbolKind → String
  | invalid => "invalid"
  | letBinding => "let"
  | constBinding => "const"
  | param => "param"
  | function => "function"
  | foreign => "extern"
  | type => "type"

/-- The kind of what a node declares; invalid if it declares nothing. -/
def ofForm : Form → SymbolKind
  | .varDecl _ isConst _ _ => if isConst then .constBinding else .letBinding
  | .param .. => .param
  | .funcDecl .. => .function
  | .declareFunc .. => .foreign
  | .typeAlias .. => .type
  | _ => .invalid

/-- Whether the declaration holds a value that a program can change or pass: a variable, constant or parameter. -/
def isStorage : SymbolKind → Bool
  | letBinding | constBinding | param => true
  | _ => false

end SymbolKind

/-- The kind of what a node of a tree declares. -/
def symbolKind (t : Tree) (id : Nat) : SymbolKind := (t.form? id).elim .invalid .ofForm

/-- The declarations that uses of value names and of type names refer to, by the number of the use. -/
structure Table where
  refs : Std.TreeMap Nat Nat := {}
  typeRefs : Std.TreeMap Nat Nat := {}
  deriving Inhabited

namespace Table

def decl? (t : Table) (ref : Nat) : Option Nat := t.refs[ref]?

def typeDecl? (t : Table) (ref : Nat) : Option Nat := t.typeRefs[ref]?

end Table

end TypedScript.Binding
