import TypedScript.Project.Config
import TypedScript.Proofs.Compile.Backends
import TypedScript.Proofs.Lower.Complete

/-!
# The symbols of a module are different

A project chooses the names of the entry and of the two hooks. The settings are checked for names that are no
symbols and for names that are equal. They are not checked against the names of the helpers and those of
functions, which have dots like the names that may be chosen. If none of these is chosen, no two symbols of a
module are the same.

* `IsGenerated`: the names that are not free to choose.
* `lower_symbolsApart`: whatever else is chosen, a module comes out in which no symbol is taken twice.
-/

namespace TypedScript.Compile

open TypedScript.Ir TypedScript.Layout TypedScript.Lower TypedScript.Machine

variable {c c' : Project.Config} {file : Source.File} {limit : Nat}

/-- The names that a project chooses for symbols. -/
def hooks (c : Project.Config) : Lower.Options := .ofNames c.entry c.allocate c.release

/-- The name is that of a helper or of the body of a function. -/
def IsGenerated (t : Ast.Tree) (name : String) : Prop :=
  name ∈ helperNames ∨ ∃ fn, t.isFunction fn = true ∧ name = codeName t fn

instance (t : Ast.Tree) (name : String) : Decidable (IsGenerated t name) :=
  decidable_of_iff (name ∈ helperNames ∨ ∃ fn < t.size + 1, t.isFunction fn = true ∧ name = codeName t fn) <|
    or_congr_right <| exists_congr fun _ => and_iff_right_of_imp fun h => lt_size_of_isFunction h.1

/-- No two of the symbols are the same: the hooks and all that is defined, like the entry, the helpers and the
bodies of functions. -/
structure SymbolsApart (o : Lower.Options) (commands : Array Command) : Prop where
  nodup : (o.allocate :: o.release :: definitions commands).Nodup
  entry : o.entry ∈ definitions commands
  helpers : helperNames ⊆ definitions commands

section

variable {ε α β γ : Type} {p : Prop} [Decidable p] {e : ε} {f : β → Except ε α} {a : α}

/-- A guard lets a computation go on if its condition does not hold. -/
theorem guard_eq_ok {x : Except ε α} : (if p then throw e >>= f else x) = .ok a ↔ ¬ p ∧ x = .ok a := by
  split
  · rename_i hp
    exact ⟨nofun, fun h => absurd hp h.1⟩
  · rename_i hp
    exact ⟨fun h => ⟨hp, h⟩, And.right⟩

/-- The same for a guard at the head of a loop's body. -/
theorem guard_bind_eq_ok {f : β → Except ε γ} {c : γ} {k : γ → Except ε α} :
    ((if p then throw e >>= f else pure c) >>= k) = .ok a ↔ ¬ p ∧ k c = .ok a := by
  split
  · rename_i hp
    exact ⟨nofun, fun h => absurd hp h.1⟩
  · rename_i hp
    exact ⟨fun h => ⟨hp, h⟩, And.right⟩

end

/-- Settings that are right name three different symbols. -/
theorem names_of_validate (h : c.validate = .ok c') :
    (∀ name ∈ [c.entry, c.allocate, c.release], Project.isSymbol name = true) ∧
    [c.entry, c.allocate, c.release].Nodup := by
  unfold Project.Config.validate at h
  simp only [List.forIn_cons, List.forIn_nil, bind_assoc, pure_bind, guard_bind_eq_ok, guard_eq_ok] at h
  obtain ⟨hentry, hallocate, hrelease, hhooks, hother, -⟩ := h
  simp_all

/-- The names are taken as they are, because none is empty. -/
theorem hooks_of_validate (h : c.validate = .ok c') : hooks c = ⟨c.entry, c.allocate, c.release⟩ := by
  have hpick {name default : String} (hsymbol : Project.isSymbol name = true) :
    (if name = "" then default else name) = name := by
    refine if_neg ?_
    rintro rfl
    exact nomatch hsymbol
  have hsymbols := (names_of_validate h).1
  simp only [hooks, Lower.Options.ofNames]
  rw [hpick (hsymbols _ (by simp)), hpick (hsymbols _ (by simp)), hpick (hsymbols _ (by simp))]

/-- Names that are different and not generated are not taken. -/
theorem regular_of_validate (hvalid : c.validate = .ok c')
    (hfree : ∀ name ∈ [c.entry, c.allocate, c.release], ¬ IsGenerated (Ast.parse file limit).tree name) :
    (checkedInput file limit (hooks c)).Regular := by
  have hreserved : reservedNames (hooks c) = [c.entry, c.allocate, c.release] ++ helperNames := by
    rw [hooks_of_validate hvalid]
    rfl
  have hhelpers : helperNames.Nodup := by decide
  refine regular_of_apart file limit ?_ fun fn hfn hmem => ?_
  · rw [hreserved, List.nodup_append]
    exact ⟨(names_of_validate hvalid).2, hhelpers, fun x hx y hy heq => hfree x hx (.inl (heq ▸ hy))⟩
  · rw [hreserved] at hmem
    rcases List.mem_append.1 hmem with hmem | hmem
    · exact hfree _ hmem (.inr ⟨fn, hfn, rfl⟩)
    · -- the names of the helpers have no dot
      have hundotted : ∀ name ∈ helperNames, '.' ∉ name.toList := by decide
      exact hundotted _ hmem (dot_mem_codeName hfn)

/-- The hooks are not defined, the entry and the helpers are, and nothing is defined twice. -/
theorem symbolsApart_of_lower {inp : Input} (hinp : inp.Regular) (hready : inp.Ready) {target : Target}
    (hlower : (lower inp target).error = none) {m : Module} (hm : Built (lower inp target).state.commands m) :
    SymbolsApart inp.options (lower inp target).state.commands := by
  have hrun := runs_of_lower hlower
  have hend := (settles_lowerProgram hinp target).1 () _ hrun
  have hbegun := (completes_lowerProgram hinp hready hrun).2.1
  obtain ⟨_, s₁, hnames, -⟩ := runs_bind.1 hrun
  have hprovided {name : String} (h : inp.IsProvided name) : name ∉ definitions (lower inp target).state.commands :=
    fun hmem => hend.not_begun hinp (notMem_of_checkNames hnames).2 h (mem_definitions.1 hmem)
  have hhooks : inp.options.allocate ≠ inp.options.release := by
    have hnodup := hinp.nodup
    simp only [reservedNames, List.cons_append, List.nodup_cons, List.mem_cons, not_or] at hnodup
    exact hnodup.2.1.1
  constructor
  case nodup =>
    rw [List.nodup_cons, List.mem_cons, not_or, List.nodup_cons]
    exact ⟨⟨hhooks, hprovided (.inl rfl)⟩, hprovided (.inr (.inl rfl)), (records_of_built hm).once⟩
  case entry => exact mem_definitions.2 (hbegun _ (mem_runtimeNames.2 (.inl rfl)))
  case helpers => exact fun name hname => mem_definitions.2 (hbegun name (mem_runtimeNames.2 (.inr hname)))

/-- Under settings that are right, and whose names are not generated, an accepted file is lowered to a module in
which the entry, the hooks, the helpers and the bodies of functions are different symbols, each defined at most
once. Only a value that is missing can prevent that, or an error that is reported. LLVM gives a module if the
commands keep the contract. -/
theorem lower_symbolsApart (hvalid : c.validate = .ok c') (hacc : IsAccepted file limit)
    (hfree : ∀ name ∈ [c.entry, c.allocate, c.release], ¬ IsGenerated (Ast.parse file limit).tree name)
    (target : Target) :
    let inp := checkedInput file limit (hooks c)
    let out := lower inp target
    out.error ≠ some .missingParameter ∧
      ((∃ m, Built out.state.commands m ∧ (out.error = none → SymbolsApart (hooks c) out.state.commands)) ∨
        LacksOperand inp ∧ Module.applyAll {} out.state.commands = .error .crash) ∧
      (Ir.obeys [] {} out.state.commands.toList = true → ∀ path triple, ∃ l,
        ({ sourceName := path, triple } : Llvm.Module).applyAll out.state.commands = .ok l) := by
  have hinp : (checkedInput file limit (hooks c)).Regular := regular_of_validate hvalid hfree
  obtain ⟨hmissing, happlies⟩ := lower_applies hinp target
  refine ⟨hmissing, ?_, fun hobeys path triple => applyAll_of_obeys hinp path triple hobeys⟩
  rcases happlies with ⟨m, hm⟩ | hcrashes
  · exact .inl ⟨m, hm, fun hlower => symbolsApart_of_lower hinp (hacc.ready _) hlower hm⟩
  · exact .inr ⟨hcrashes.lacks, hcrashes.crash⟩

set_option maxRecDepth 100000 in
/-- Names may have dots and signs, and one may be the name of a function. -/
theorem lower_symbolsApart_of_dotted : ∃ file c m, IsAccepted file 100 ∧ c.validate = .ok c ∧
    (∀ name ∈ [c.entry, c.allocate, c.release], ¬ IsGenerated (Ast.parse file 100).tree name) ∧
    Built (lower (checkedInput file 100 (hooks c)) (Target.ofTriple "")).state.commands m ∧
    SymbolsApart (hooks c) (lower (checkedInput file 100 (hooks c)) (Target.ofTriple "")).state.commands := by
  let file := Source.File.ofContent 0 "main.ts" "function f(): void {}\nf();\n".toUTF8.toList 0
  let c : Project.Config := { entry := "$start.2", allocate := "f", release := "f." }
  have hvalid : c.validate = .ok c := by decide +kernel
  -- decided at once, so that the file is checked and lowered only once
  obtain ⟨hacc, hfree, hlower, hbuilds⟩ : IsAccepted file 100 ∧
      (∀ name ∈ [c.entry, c.allocate, c.release], ¬ IsGenerated (Ast.parse file 100).tree name) ∧
      (lower (checkedInput file 100 (hooks c)) (Target.ofTriple "")).error.isNone = true ∧
      (Module.applyAll {} (lower (checkedInput file 100 (hooks c)) (Target.ofTriple "")).state.commands).isOk =
      true := by
    decide +kernel
  obtain ⟨-, ⟨m, hm, hapart⟩ | ⟨-, hcrash⟩, -⟩ := lower_symbolsApart hvalid hacc hfree (Target.ofTriple "")
  · exact ⟨file, c, m, hacc, hvalid, hfree, hm, hapart (Option.isNone_iff_eq_none.1 hlower)⟩
  · rw [hcrash] at hbuilds
    exact nomatch hbuilds

end TypedScript.Compile
