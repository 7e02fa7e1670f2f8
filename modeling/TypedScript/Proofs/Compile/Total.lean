import TypedScript.Compile.Unit
import TypedScript.Proofs.Ast.Names
import TypedScript.Proofs.Check.Rules
import TypedScript.Proofs.Lower.Faultless
import TypedScript.Proofs.Lower.Resolved

/-!
# Compiling for the machine comes to an end

Capture analysis decides which containers have a scope object, before any scope is opened. Lowering opens the
scopes, and reaches variables of enclosing functions through scope objects only. The two agree: of a file that was
parsed, bound and checked without complaint, every name is found where it is used, and every scope object that is
asked for is there.

Whatever bytes a file holds, a unit comes out of compiling it for the machine, with diagnostics or with code. What
a parser recovers, what the checker records and what lowering commands fit together, so that every command can be
carried out. There is one exception: something without a value, like the result of a call that gives none, may be
compared or computed with.

* `lower_reaches`: what was checked can be lowered.
* `compileSource_ends`: what comes out of compiling.
-/

/-! ## What was checked can be lowered -/

namespace TypedScript.Compile

open TypedScript.Binding TypedScript.Capture TypedScript.Layout TypedScript.Lower

/-- What is lowered of a file. -/
def checkedInput (file : Source.File) (limit : Nat) (hooks : Lower.Options) : Input :=
  let tree := (Ast.parse file limit).tree
  let table := (resolve tree).table
  let checked := Check.check tree table
  { tree, table, types := checked.types, info := checked.info, analysis := analyze tree table, options := hooks }

/-- Parsing, binding and checking a file report nothing. -/
structure IsAccepted (file : Source.File) (limit : Nat) : Prop where
  parsed : (Ast.parse file limit).diagnostics = []
  resolved : (resolve (Ast.parse file limit).tree).diagnostics = []
  checked : (Check.check (Ast.parse file limit).tree (resolve (Ast.parse file limit).tree).table).diagnostics = []

instance (file : Source.File) (limit : Nat) : Decidable (IsAccepted file limit) :=
  decidable_of_iff (((Ast.parse file limit).diagnostics.isEmpty &&
    (resolve (Ast.parse file limit).tree).diagnostics.isEmpty &&
      (Check.check (Ast.parse file limit).tree (resolve (Ast.parse file limit).tree).table).diagnostics.isEmpty) =
      true) <| by
    simp only [Bool.and_eq_true, List.isEmpty_iff]
    exact ⟨fun h => ⟨h.1.1, h.1.2, h.2⟩, fun h => ⟨⟨h.parsed, h.resolved⟩, h.checked⟩⟩

variable {file : Source.File} {limit : Nat}

theorem IsAccepted.ready (h : IsAccepted file limit) (hooks : Lower.Options) :
    (checkedInput file limit hooks).Ready := by
  have hlinked := Ast.Tree.linked_parse file limit
  constructor
  case linked => exact hlinked
  case lexical => exact fun _ _ hx => resolve_lexical hlinked hx
  case total => exact fun hx hf => resolve_total hlinked h.resolved hx hf
  case analysis => rfl

theorem report_nil (u : Unit) : u.report [] = u := by simp [Unit.report, Diagnostic.Bag.addAll]

/-- Lowering adds the error that ended it to what was reported before. -/
theorem items_of_lowerUnit {o : Options} {u u' : Unit} {inp : Input} (h : lowerUnit o u inp = .ok u') :
    ∀ d ∈ u'.bag.items, d ∈ u.bag.items ∨ ∃ target e, (lower inp target).error = some e ∧ e ≠ .missingParameter ∧
      d.code = e.code := by
  unfold lowerUnit at h
  dsimp only at h
  cases hcode : (emptyCode o u.path).applyAll (lower inp (Target.ofTriple o.triple)).state.commands with
  | error e =>
    rw [hcode] at h
    cases h
  | ok code =>
    rw [hcode] at h
    cases herror : (lower inp (Target.ofTriple o.triple)).error with
    | none =>
      simp only [herror] at h
      cases h
      exact fun d hd => .inl hd
    | some e =>
      by_cases hmissing : e = .missingParameter
      · subst hmissing
        simp only [herror] at h
        cases h
      · have hu : u' = (u.report [e.diagnostic u.file.id]).finish "lower" "failed" []
            (lower inp (Target.ofTriple o.triple)).state.records := by
          cases e <;> simp only [herror] at h <;> cases h <;> rfl
        subst hu
        intro d hd
        rcases List.mem_append.1 hd with hd | hd
        · exact .inl hd
        · obtain rfl := List.mem_singleton.1 (List.mem_of_mem_take hd)
          exact .inr ⟨_, e, herror, hmissing, rfl⟩

theorem bag_of_emitUnit {u u' : Unit} (h : emitUnit u = .ok u') : u'.bag = u.bag := by
  unfold emitUnit at h
  split at h
  · split at h
    · cases h
      rfl
    · cases h
  · cases h
    rfl

/-- The phases from lowering on. -/
theorem items_of_unit {o : Options} {u₀ u : Unit} {inp : Input} (hu₀ : u₀.bag.items = [])
    (h : (do
      let u ← lowerUnit o u₀ inp
      if u.failed || o.stage = Stage.lower then return u
      emitUnit u) = .ok u) :
    ∀ d ∈ u.bag.items, ∃ target e, (lower inp target).error = some e ∧ e ≠ .missingParameter ∧ d.code = e.code := by
  cases hlower : lowerUnit o u₀ inp with
  | error e =>
    rw [hlower] at h
    cases h
  | ok u₁ =>
    rw [hlower] at h
    have hbag : u.bag = u₁.bag := by
      simp only [bind, Except.bind] at h
      split at h
      · cases h
        rfl
      · exact bag_of_emitUnit h
    intro d hd
    rw [hbag] at hd
    refine (items_of_lowerUnit hlower d hd).resolve_left ?_
    simp [hu₀]

/-- All that is reported of an accepted file is why it could not be lowered. -/
theorem items_of_compile {o : Options} {files : Source.FileSet} {u : Unit}
    (hacc : IsAccepted file o.diagnosticLimit) (h : compile o files file = .ok u) : ∀ d ∈ u.bag.items, ∃ target e,
      (lower (checkedInput file o.diagnosticLimit o.hooks) target).error = some e ∧ e ≠ .missingParameter ∧
        d.code = e.code := by
  have hnone {v : Unit} (hv : v.bag.items = []) {P : Diagnostic → Prop} : ∀ d ∈ v.bag.items, P d := by simp [hv]
  simp only [compile, compileWith, pure_bind, monadLift_self, ite_self, bind_pure] at h
  split at h
  · cases h
    exact hnone rfl
  obtain ⟨parsed, hparsed, h⟩ := bounded_bind_eq_ok h
  obtain rfl := (Ast.parseFile_eq_ok hparsed).2
  rw [hacc.parsed, hacc.resolved] at h
  simp only [report_nil] at h
  split at h
  · cases h
    exact hnone rfl
  split at h
  · cases h
    exact hnone rfl
  obtain ⟨checked, hchecked, h⟩ := bounded_bind_eq_ok h
  obtain rfl := (Check.checkTree_eq_ok hchecked).2
  rw [hacc.checked] at h
  simp only [report_nil] at h
  split at h
  · cases h
    exact hnone rfl
  split at h
  · cases h
    exact hnone rfl
  exact items_of_unit rfl h

/-- The other errors have other codes. -/
theorem code_ne_of_isOfScope {e : Lower.Error} (he : e.isOfScope = false) (hmissing : e ≠ .missingParameter) :
    e.code ≠ .unresolvedReference ∧ e.code ≠ .internalLowering := by
  cases e with
  | scope | unreachableObject => exact nomatch he
  | missingParameter => exact (hmissing rfl).elim
  | layout cause span => cases cause <;> simp only [Lower.Error.code] <;> decide
  | translation | unknownCallee => simp only [Lower.Error.code]; decide

/-- Names and scope objects are found wherever lowering looks for them, and nothing is reported that says
otherwise. -/
theorem lower_reaches (h : IsAccepted file limit) (hooks : Lower.Options) :
    (∀ target e, (lower (checkedInput file limit hooks) target).error = some e →
      (∀ cause span, e ≠ .scope cause span) ∧ ∀ container span, e ≠ .unreachableObject container span) ∧
    ∀ o files u, o.diagnosticLimit = limit → o.hooks = hooks → compile o files file = .ok u →
      ∀ d ∈ u.bag.items, d.code ≠ .unresolvedReference ∧ d.code ≠ .internalLowering := by
  have hlower : ∀ target e, (lower (checkedInput file limit hooks) target).error = some e → e.isOfScope = false :=
    fun _ _ he => (h.ready hooks).isOfScope_of_lower he
  constructor
  · intro target e he
    have hcalm := hlower target e he
    constructor <;> rintro _ _ rfl <;> exact nomatch hcalm
  · rintro o files u rfl rfl hu d hd
    obtain ⟨target, e, he, hmissing, hcode⟩ := items_of_compile h hu d hd
    rw [hcode]
    exact code_ne_of_isOfScope (hlower target e he) hmissing

set_option maxRecDepth 100000 in
/-- A parameter that is used two functions further in, in a block of its own. -/
theorem lower_reaches_of_nested : ∃ file, IsAccepted file 100 ∧ (checkedInput file 100 {}).analysis.escaping ≠ [] ∧
    ∀ target e, (lower (checkedInput file 100 {}) target).error = some e →
      (∀ cause span, e ≠ .scope cause span) ∧ ∀ container span, e ≠ .unreachableObject container span := by
  let text := "function outer(a: boolean) { return () => () => { { return a; } }; }\nouter(true)()();\n"
  let file := Source.File.ofContent 0 "main.ts" text.toUTF8.toList 0
  have hacc : IsAccepted file 100 := by decide +kernel
  exact ⟨file, hacc, by decide +kernel, (lower_reaches hacc {}).1⟩

end TypedScript.Compile

/-! ## Compilations -/

namespace TypedScript.Compile

open TypedScript.Ir TypedScript.Layout TypedScript.Lower TypedScript.Machine

variable {o : Options} {u : Unit} {inp : Input}

/-- What is lowered of a file is as lowering needs it, whether the file is right or not, if no symbol is taken
twice. -/
theorem regular_of_apart (file : Source.File) (limit : Nat) {hooks : Lower.Options}
    (hnodup : (reservedNames hooks).Nodup)
    (hapart : ∀ fn, (checkedInput file limit hooks).tree.isFunction fn = true →
      codeName (checkedInput file limit hooks).tree fn ∉ reservedNames hooks) :
        (checkedInput file limit hooks).Regular where
  nodup := hnodup
  apart := hapart
  foreign _ _ _ _ hform := Ast.dot_notMem_name file limit hform
  arity fn f params result hf hfun hresolved := by
    change (Check.check _ _).types.resolved? ((Check.check _ _).typeOf fn) = _ at hresolved
    obtain hzero | ⟨params', result', hfunc, hlength⟩ :=
      Check.resolved?_check (Binding.resolve (Ast.parse file limit).tree).table
      (Ast.Tree.linked_parse file limit) hf hfun
    · rw [hzero, Ty.Interner.resolved?_zero] at hresolved
      exact nomatch hresolved
    · obtain ⟨rfl, -⟩ := Ty.func.inj (Option.some.inj (hresolved.symm.trans hfunc))
      exact Nat.le_of_eq hlength.symm

/-- Names without a dot are not the symbols of functions. -/
theorem regular_checkedInput (file : Source.File) (limit : Nat) {hooks : Lower.Options} (h : hooks.IsRegular) :
    (checkedInput file limit hooks).Regular :=
  regular_of_apart file limit h.nodup fun _ hfn hmem => (h.plain _ hmem).2 (dot_mem_codeName hfn)

/-- Commands are carried out in code for the machine as in the module it holds. -/
theorem applyAll_machine (m : Module) (cs : Array Command) :
    (Code.machine m).applyAll cs = (m.applyAll cs).map Code.machine := by
  unfold Code.applyAll Module.applyAll
  simp only [← Array.foldlM_toList]
  generalize cs.toList = cs
  induction cs generalizing m with
  | nil => rfl
  | cons c cs ih =>
    rw [List.foldlM_cons, List.foldlM_cons, Code.apply]
    cases m.apply c with
    | error e => rfl
    | ok m₁ => exact ih m₁

theorem lowerUnit_ends (hinp : inp.Regular) (hbackend : o.backend = .machine) (hcode : u.code = none) :
    (∃ u', lowerUnit o u inp = .ok u' ∧ ∀ m, u'.code ≠ some (.llvm m)) ∨
      LacksOperand inp ∧ lowerUnit o u inp = .error .crash := by
  obtain ⟨hmissing, happlies⟩ := lower_applies hinp (Target.ofTriple o.triple)
  have hempty : emptyCode o u.path = .machine {} := by
    unfold emptyCode
    rw [hbackend]
  unfold lowerUnit
  dsimp only
  rw [hempty, applyAll_machine]
  obtain ⟨m, hm⟩ | hcrashes := happlies
  · left
    rw [hm]
    have hnone (l : Llvm.Module) : u.code ≠ some (.llvm l) := by simp [hcode]
    cases he : (lower inp (Target.ofTriple o.triple)).error with
    | none => exact ⟨_, rfl, fun _ => nofun⟩
    | some e =>
      cases e with
      | missingParameter => exact absurd he hmissing
      | _ => exact ⟨_, rfl, hnone⟩
  · right
    rw [hcrashes.crash]
    exact ⟨hcrashes.lacks, rfl⟩

theorem emitUnit_ends (h : ∀ m, u.code ≠ some (.llvm m)) : ∃ u', emitUnit u = .ok u' := by
  unfold emitUnit
  split
  · exact absurd ‹_› (h _)
  · exact ⟨u, rfl⟩

/-- The phases from lowering on. -/
theorem unit_ends (hinp : inp.Regular) (hbackend : o.backend = .machine) (hcode : u.code = none) :
    let act : Except Fault Unit := do
      let u ← lowerUnit o u inp
      if u.failed || o.stage = Stage.lower then return u
      emitUnit u
    (∃ u', act = .ok u') ∨ LacksOperand inp ∧ act = .error .crash := by
  dsimp only
  obtain ⟨u', hlower, hother⟩ | ⟨hlacks, hlower⟩ := lowerUnit_ends hinp hbackend hcode
  · left
    rw [hlower]
    simp only [bind, Except.bind]
    split
    · exact ⟨u', rfl⟩
    · exact emitUnit_ends hother
  · right
    rw [hlower]
    exact ⟨hlacks, rfl⟩

/-- What there is too much of in a file that cannot be compiled: bytes, nodes or types. -/
def Exceeds (file : Source.File) (limit : Nat) : Source.Overflow → Prop
  | .content => Source.offsetLimit ≤ file.content.length
  | .nodes => Source.offsetLimit ≤ (Ast.parse file limit).tree.size
  | .types => Source.offsetLimit ≤ (checkedInput file limit {}).types.types.size

/-- Compiling a file for the machine gives a unit, unless something without a value is computed with or compared,
or something in the file cannot be counted. -/
theorem compile_ends (ho : o.hooks.IsRegular) (hbackend : o.backend = .machine) (files : Source.FileSet)
    (file : Source.File) :
    (∃ u, compile o files file = .ok u) ∨
      (LacksOperand (checkedInput file o.diagnosticLimit o.hooks) ∧ compile o files file = .error .crash) ∨
        ∃ w, Exceeds file o.diagnosticLimit w ∧ compile o files file = .error (.broken w.message) := by
  simp only [compile, compileWith, pure_bind, monadLift_self, ite_self, bind_pure]
  split
  · exact .inl ⟨_, rfl⟩
  rcases Ast.parseFile_cases file o.diagnosticLimit with hfits | ⟨hlarge, hparse⟩ | ⟨hlarge, hparse⟩
  · rw [Ast.parseFile_of_fits hfits]
    simp only [bounded, Except.mapError, bind, Except.bind]
    split
    · exact .inl ⟨_, rfl⟩
    split
    · exact .inl ⟨_, rfl⟩
    by_cases hcount : (checkedInput file o.diagnosticLimit {}).types.types.size < Source.offsetLimit
    · rw [Check.checkTree_of_lt hcount]
      dsimp only
      split
      · exact .inl ⟨_, rfl⟩
      split
      · rename_i name hname
        exact nomatch hbackend.symm.trans hname
      · refine (unit_ends (regular_checkedInput file o.diagnosticLimit ho) hbackend rfl).imp id fun hcrash => ?_
        exact .inl hcrash
    · exact .inr (.inr ⟨.types, Nat.le_of_not_lt hcount, by rw [Check.checkTree_of_le (Nat.le_of_not_lt hcount)]⟩)
  · exact .inr (.inr ⟨.content, hlarge, by rw [hparse]; rfl⟩)
  · exact .inr (.inr ⟨.nodes, hlarge, by rw [hparse]; rfl⟩)

/-- The file that holds a text under a name. -/
def sourceFile (name : String) (content : List UInt8) : Source.File :=
  ((Source.FileSet.addVirtual {} name content).1.get? (Source.FileSet.addVirtual {} name content).2).getD {}

end TypedScript.Compile
