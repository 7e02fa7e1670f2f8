import TypedScript.Proofs.Ast.Spans
import TypedScript.Proofs.Token.Spelling

/-!
# The names in a tree

A name in a tree is the text of an identifier of the file, but for the type `null`, which is a keyword. So what
holds of all identifiers holds of all names, and a name has no character that identifiers and `null` are free of.
-/

namespace TypedScript.Ast

/-- What holds of all identifiers of a file, of no name and of `null` holds of all names in its tree. -/
theorem name_parse {P : String → Prop} (hempty : P "") (hnull : P "null") (file : Source.File) (maxErrors : Nat)
    (hident : ∀ tok ∈ (Token.ofFile file).1, tok.kind = .ident → P tok.text) {id : Nat} {f : Form}
    (h : (parse file maxErrors).tree.form? id = some f) : P f.name := by
  have hs := written_parse hempty hnull file maxErrors hident
  obtain ⟨n, hn, rfl⟩ := Option.map_eq_some_iff.1 h
  unfold Tree.node? at hn
  split at hn
  · cases hn
  · exact hs.names n (Array.mem_of_getElem? hn)

/-- Characters that identifiers and `null` are free of are in no name in the tree of a file. -/
theorem notMem_name {codes : List Nat} (hforeign : Token.Foreign codes)
    (hnull : ∀ x ∈ "null".toList, x.toNat ∉ codes) (file : Source.File) (maxErrors : Nat) {id : Nat} {f : Form}
    (h : (parse file maxErrors).tree.form? id = some f) :
    ∀ x ∈ f.name.toList, x.toNat ∉ codes :=
  name_parse (P := fun name => ∀ x ∈ name.toList, x.toNat ∉ codes) (by simp) hnull file maxErrors
    (hforeign.notMem_scanAll file.id 0 file.content) h

/-- No name in the tree of a file has a dot. -/
theorem dot_notMem_name (file : Source.File) (maxErrors : Nat) {id : Nat} {f : Form}
    (h : (parse file maxErrors).tree.form? id = some f) : '.' ∉ f.name.toList := fun hmem =>
  notMem_name Token.foreign_dot (by simp) file maxErrors h '.' hmem (by decide)

/-- No name in the tree of a file has an equals sign. -/
theorem equals_notMem_name (file : Source.File) (maxErrors : Nat) {id : Nat} {f : Form}
    (h : (parse file maxErrors).tree.form? id = some f) : '=' ∉ f.name.toList := fun hmem =>
  notMem_name Token.foreign_equals (by simp) file maxErrors h '=' hmem (by decide)

end TypedScript.Ast
