import TypedScript.Source.Span

/-!
# Diagnostics

A diagnostic is a message about a place in a source file, with a severity and a numbered code. A bag collects them
up to a limit.
-/

namespace TypedScript.Diagnostic

open TypedScript.Source

/-- How much a diagnostic matters; a higher rank matters more. -/
structure Severity where
  rank : UInt8
  deriving DecidableEq, Inhabited, Repr

namespace Severity

def info : Severity := ⟨0⟩
def warning : Severity := ⟨1⟩
def error : Severity := ⟨2⟩

def name (s : Severity) : String :=
  match s.rank with
  | 0 => "INFO"
  | 1 => "WARNING"
  | 2 => "ERROR"
  | _ => "UNKNOWN"

end Severity

/-- The number that classifies a diagnostic. Its thousands name the phase that reports it. -/
structure Code where
  number : UInt16
  deriving DecidableEq, Inhabited, Repr

namespace Code

def unknown : Code := ⟨0⟩

def unknownCharacter : Code := ⟨1001⟩
def unterminatedString : Code := ⟨1002⟩
def unterminatedComment : Code := ⟨1003⟩
def badNumber : Code := ⟨1004⟩

def unexpectedToken : Code := ⟨2001⟩
def expectSemicolon : Code := ⟨2002⟩
def expectIdentifier : Code := ⟨2003⟩
def expectExpression : Code := ⟨2004⟩
def expectType : Code := ⟨2005⟩
def unclosedDelimiter : Code := ⟨2006⟩
def expectInitializer : Code := ⟨2007⟩
def unsupportedForm : Code := ⟨2008⟩

def unresolvedName : Code := ⟨3001⟩
def duplicateDeclaration : Code := ⟨3002⟩
def typeMismatch : Code := ⟨3003⟩
def unknownProperty : Code := ⟨3004⟩
def notCallable : Code := ⟨3005⟩
def argumentCount : Code := ⟨3006⟩
def unknownType : Code := ⟨3007⟩
def missingType : Code := ⟨3008⟩
def assignToConstant : Code := ⟨3009⟩
def returnOutsideFunction : Code := ⟨3010⟩
def invalidOperand : Code := ⟨3011⟩
def missingProperty : Code := ⟨3012⟩
def extraProperty : Code := ⟨3013⟩
def notAssignable : Code := ⟨3014⟩

def unresolvedReference : Code := ⟨4001⟩
def recursiveType : Code := ⟨4002⟩
def fieldNotFound : Code := ⟨4003⟩
def unknownCallee : Code := ⟨4004⟩
def unsupportedConstruct : Code := ⟨4005⟩
def notStructural : Code := ⟨4006⟩
def internalLowering : Code := ⟨4099⟩

def loadFailure : Code := ⟨5001⟩
def invalidConfig : Code := ⟨5002⟩
def missingEntry : Code := ⟨5003⟩

/-- The code with the letters of its phase before its number. -/
def id (c : Code) : String :=
  match c.number.toNat / 1000 with
  | 1 => "LEX" ++ toString c.number
  | 2 => "SYN" ++ toString c.number
  | 3 => "SEM" ++ toString c.number
  | 4 => "LOW" ++ toString c.number
  | 5 => "PRJ" ++ toString c.number
  | _ => "E0000"

/-- What the code stands for; numbers without a meaning of their own are unknown errors. -/
def title (c : Code) : String :=
  match c.number with
  | 1001 => "Unknown character"
  | 1002 => "Unterminated string literal"
  | 1003 => "Unterminated block comment"
  | 1004 => "Malformed number literal"
  | 2001 => "Unexpected token"
  | 2002 => "Expected semicolon"
  | 2003 => "Expected identifier"
  | 2004 => "Expected expression"
  | 2005 => "Expected type"
  | 2006 => "Unclosed delimiter"
  | 2007 => "Variable declaration requires an initializer"
  | 2008 => "Construct outside the supported language subset"
  | 3001 => "Unresolved name"
  | 3002 => "Duplicate declaration"
  | 3003 => "Type mismatch"
  | 3004 => "Unknown property"
  | 3005 => "Value is not callable"
  | 3006 => "Wrong number of arguments"
  | 3007 => "Unknown type"
  | 3008 => "Missing type annotation"
  | 3009 => "Assignment to constant"
  | 3010 => "Return outside of function"
  | 3011 => "Invalid operand"
  | 3012 => "Missing property in object literal"
  | 3013 => "Excess property in object literal"
  | 3014 => "Expression is not assignable"
  | 4001 => "Unresolved reference during lowering"
  | 4002 => "Recursive type has no finite layout"
  | 4003 => "Field not found in layout"
  | 4004 => "Callee has no known representation"
  | 4005 => "Unsupported construct"
  | 4006 => "Type has no structural layout"
  | 4099 => "Internal lowering error"
  | 5001 => "Failed to load file"
  | 5002 => "Invalid project configuration"
  | 5003 => "Entry file not found"
  | _ => "Unknown error"

def render (c : Code) : String := "[" ++ c.id ++ "]: " ++ c.title

end Code

/-- A remark about a second place. -/
structure Note where
  span : Span
  message : String
  deriving DecidableEq, Inhabited, Repr

end TypedScript.Diagnostic

namespace TypedScript

open TypedScript.Source TypedScript.Diagnostic

structure Diagnostic where
  severity : Severity := .error
  code : Code
  span : Span
  message : String
  notes : List Note := []
  deriving DecidableEq, Inhabited, Repr

namespace Diagnostic

def isError (d : Diagnostic) : Bool := Severity.error.rank ≤ d.severity.rank

/-- The order diagnostics are shown in: by place, then the more severe first, then by code. -/
def before (a b : Diagnostic) : Bool :=
  let place := compare a.span.file b.span.file |>.then (compare a.span.start b.span.start)
    |>.then (compare a.span.stop b.span.stop) |>.then (compare b.severity.rank a.severity.rank)
    |>.then (compare a.code.number b.code.number)
  place != .gt

/-- Diagnostics in the order they were reported, at most `limit` of them unless two bags were joined. -/
structure Bag where
  items : List Diagnostic := []
  limit : Nat
  deriving Inhabited

namespace Bag

/-- The largest limit a bag can have. -/
def maxLimit : Nat := 65535

/-- The empty bag with the given limit, or with the largest one. -/
def ofLimit (limit : Nat) : Bag := { limit := min limit maxLimit }

/-- Whether there is room for one more diagnostic. -/
def hasRoom (b : Bag) : Bool := b.items.length < b.limit

/-- Records a diagnostic if there is room for it. -/
def add (b : Bag) (d : Diagnostic) : Bag :=
  if b.hasRoom then { b with items := b.items ++ [d] } else b

/-- Records a diagnostic that is reported a number of times: once, unless it is never reported. -/
def deliver (b : Bag) (d : Diagnostic) (times : Nat) : Bag := if times = 0 then b else b.add d

/-- Records diagnostics in order, as far as there is room. -/
def addAll (b : Bag) (ds : List Diagnostic) : Bag :=
  { b with items := b.items ++ ds.take (b.limit - b.items.length) }

def hasErrors (b : Bag) : Bool := b.items.any Diagnostic.isError

/-- Both bags' diagnostics; the limit grows to hold them. -/
def merge (b other : Bag) : Bag :=
  let total := b.items.length + other.items.length
  { items := b.items ++ other.items, limit := if total > b.limit then min total maxLimit else b.limit }

/-- The diagnostics in the order they are shown in; equal ones keep theirs. -/
def sort (b : Bag) : Bag := { b with items := b.items.mergeSort Diagnostic.before }

/-- Whether two diagnostics say the same about the same place, for the purpose of `dedup`. -/
def sameReport (a d : Diagnostic) : Bool := a.code.id == d.code.id && a.span == d.span

/-- Keeps the first of several diagnostics with one code and place. -/
def dedup (b : Bag) : Bag :=
  { b with items := b.items.foldl (fun kept d => if kept.any (sameReport d) then kept else kept ++ [d]) [] }

theorem length_add_le (b : Bag) (d : Diagnostic) (h : b.items.length ≤ b.limit) :
    (b.add d).items.length ≤ (b.add d).limit := by
  unfold add
  split
  · rename_i room
    have : b.items.length < b.limit := by simpa [hasRoom] using room
    simp only [List.length_append, List.length_singleton]
    omega
  · exact h

end Bag

end Diagnostic

end TypedScript
