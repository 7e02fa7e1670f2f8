import TypedScript.Ast.Tree
import TypedScript.Source.File

/-!
# Checks on trees

What every tree of a file is expected to satisfy: spans are ordered and lie within the file, and every part names
the node that holds it as its parent. A tree without errors also has a module span that covers its statements.
-/

namespace TypedScript.Ast.Tree

open TypedScript.Source

/-- The way in which a node breaks the expectations. -/
inductive Violation where
  | noRoot
  | contentOverflow
  | invertedSpan (kind : String) (id : Nat) (span : Span)
  | spanBeyondContent (kind : String) (id : Nat) (span : Span) (size : Nat)
  | wrongFile (kind : String) (id file expected : Nat)
  | wrongParent (kind : String) (id parent expected : Nat)
  | outsideModule (span moduleSpan : Span)

def Violation.message : Violation → String
  | .noRoot => "unit has no root"
  | .contentOverflow => "len content overflow: out of range"
  | .invertedSpan kind id span => s!"{kind} node {id} has inverted span {span.render}"
  | .spanBeyondContent kind id span size =>
    s!"{kind} node {id} span {span.render} ends beyond content ({size} bytes)"
  | .wrongFile kind id file expected => s!"{kind} node {id} span points to file {file}, want {expected}"
  | .wrongParent kind id parent expected => s!"{kind} node {id} has parent {parent}, want {expected}"
  | .outsideModule span moduleSpan => s!"statement span {span.render} is outside module span {moduleSpan.render}"

/-- What is wrong with one node. A part with the wrong parent is told before a wrong span. -/
def nodeViolation? (t : Tree) (f : File) (id : Nat) : Option Violation :=
  let span := t.span id
  let kind := t.kindName id
  match (t.children id).find? fun c => t.parent c ≠ id with
  | some c => some (.wrongParent (t.kindName c) c (t.parent c) id)
  | none =>
    if span.stop < span.start then some (.invertedSpan kind id span)
    else if span.stop > f.content.length then some (.spanBeyondContent kind id span f.content.length)
    else if span.file ≠ f.id then some (.wrongFile kind id span.file f.id)
    else none

/-- The first node, in the order of `reached`, that breaks the expectations. The offsets of the file have to be
words. -/
def spanViolation? (t : Tree) (f : File) : Option Violation :=
  if t.root = 0 then some .noRoot
  else if offsetLimit ≤ f.content.length then some .contentOverflow
  else t.reached.findSome? (t.nodeViolation? f)

/-- The first statement whose span is not empty and not within the span of the module. -/
def moduleViolation? (t : Tree) : Option Violation :=
  let m := t.span t.root
  (t.children t.root).findSome? fun c =>
    let s := t.span c
    if !s.isEmpty && (s.start < m.start || s.stop > m.stop) then some (.outsideModule s m) else none

end TypedScript.Ast.Tree
