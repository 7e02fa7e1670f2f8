import TypedScript.Compile.Run
import TypedScript.Proofs.Compile.Limit
import TypedScript.Proofs.Lower.Complete
import TypedScript.Proofs.Machine.Present

/-!
# Compiling and running come to an end

Whatever file is accepted, the code it is lowered to is well formed, so the machine can run it without a look at
what is in it. Compiling a file may break off, for two reasons only, and what comes out can be run without the
machine breaking off.

* `lower_wellFormed`: the code of a module can be run without a look at what is in it, and every symbol has a body.
* `lowered_of_compile`: what a unit for the machine is made of.
* `compileSource_ends`: what compiling any bytes and running the outcome comes to.
-/

namespace TypedScript.Compile

open TypedScript.Ir TypedScript.Layout TypedScript.Lower TypedScript.Machine

variable {file : Source.File} {limit : Nat}

/-! ### Well-formed modules

Whatever file is accepted, the machine module that it is lowered to can be run from block to block without a look
at what is in it: control never runs off a block or into another function, no register is read that may be
undefined, and every symbol has a body, but for those that the host provides. -/

/-- An accepted file that is lowered without an error gives a well-formed module. The names of the entry and of
the hooks may be any that are not taken. -/
theorem lower_wellFormed (h : IsAccepted file limit) {hooks : Lower.Options} (hnodup : (reservedNames hooks).Nodup)
    (hapart : ∀ fn, (checkedInput file limit hooks).tree.isFunction fn = true →
      codeName (checkedInput file limit hooks).tree fn ∉ reservedNames hooks)
    {target : Target} (hlower : (lower (checkedInput file limit hooks) target).error = none) {m : Machine.Module}
    (hm : Built (lower (checkedInput file limit hooks) target).state.commands m) :
    m.WellFormed (checkedInput file limit hooks).IsProvided ∧
      (definitions (lower (checkedInput file limit hooks) target).state.commands).Nodup :=
  wellFormed_of_lower (regular_of_apart file limit hnodup hapart) (h.ready hooks) hlower hm

set_option maxRecDepth 100000 in
/-- A loop with a way out of it, in a function that calls the one it is given. -/
theorem lower_wellFormed_of_loop : ∃ file, IsAccepted file 100 ∧
    (lower (checkedInput file 100 {}) (Target.ofTriple "")).error = none ∧
    ∃ m, Built (lower (checkedInput file 100 {}) (Target.ofTriple "")).state.commands m ∧
      m.WellFormed (checkedInput file 100 {}).IsProvided := by
  let text := "type F = () => void;\nfunction repeat(f: F) { while (true) { if (f == f) { return; } f(); } }\n" ++
    "repeat(() => {});\n"
  let file := Source.File.ofContent 0 "main.ts" text.toUTF8.toList 0
  -- decided at once, so that the file is checked and lowered only once
  obtain ⟨hacc, hlower, hbuilds⟩ : IsAccepted file 100 ∧
      (lower (checkedInput file 100 {}) (Target.ofTriple "")).error.isNone = true ∧
      (Module.applyAll {} (lower (checkedInput file 100 {}) (Target.ofTriple "")).state.commands).isOk =
      true := by decide +kernel
  have hnames : Options.IsRegular {} := by decide
  have hregular := regular_checkedInput file 100 hnames
  cases hm : Module.applyAll {} (lower (checkedInput file 100 {}) (Target.ofTriple "")).state.commands with
  | error e =>
    rw [hm] at hbuilds
    exact nomatch hbuilds
  | ok m =>
    have hnone := Option.isNone_iff_eq_none.1 hlower
    exact ⟨file, hacc, hnone, m, hm, (lower_wellFormed hacc hregular.nodup hregular.apart hnone hm).1⟩

/-! ### Units -/

theorem apply_eq_ok {code : Code} {c : Command} {m' : Module} (h : code.apply c = .ok (.machine m')) :
    ∃ m, code = .machine m ∧ m.apply c = .ok m' := by
  cases code with
  | machine m =>
    simp only [Code.apply] at h
    cases happly : m.apply c with
    | error e =>
      rw [happly] at h
      cases h
    | ok m₁ =>
      rw [happly] at h
      cases h
      exact ⟨m, rfl, happly⟩
  | llvm l =>
    simp only [Code.apply] at h
    cases happly : l.apply c with
    | error e =>
      rw [happly] at h
      cases h
    | ok l₁ =>
      rw [happly] at h
      cases h

/-- Code for the machine was so from the start. -/
theorem applyAll_eq_ok {code : Code} {cs : Array Command} {m' : Module} (h : code.applyAll cs = .ok (.machine m')) :
    ∃ m, code = .machine m ∧ m.applyAll cs = .ok m' := by
  unfold Code.applyAll at h
  unfold Module.applyAll
  simp only [← Array.foldlM_toList] at h ⊢
  generalize cs.toList = cs at h
  induction cs generalizing code with
  | nil =>
    cases h
    exact ⟨m', rfl, rfl⟩
  | cons c cs ih =>
    rw [List.foldlM_cons] at h
    cases hcode : code.apply c with
    | error e =>
      rw [hcode] at h
      cases h
    | ok code₁ =>
      rw [hcode] at h
      obtain ⟨m₁, rfl, hm₁⟩ := ih h
      obtain ⟨m, rfl, hm⟩ := apply_eq_ok hcode
      refine ⟨m, rfl, ?_⟩
      rw [List.foldlM_cons, hm]
      exact hm₁

theorem lowerUnit_eq_ok {o : Options} {u u' : Unit} {inp : Input} (h : lowerUnit o u inp = .ok u') :
    u'.hooks = u.hooks ∧ (u'.code = u.code ∨ ∃ code, u'.code = some code ∧
      u'.lowered = some (lower inp (Target.ofTriple o.triple)).state ∧
      (lower inp (Target.ofTriple o.triple)).error = none ∧
      (emptyCode o u.path).applyAll (lower inp (Target.ofTriple o.triple)).state.commands = .ok code) := by
  unfold lowerUnit at h
  dsimp only at h
  cases hcode : (emptyCode o u.path).applyAll (lower inp (Target.ofTriple o.triple)).state.commands with
  | error e =>
    rw [hcode] at h
    cases h
  | ok code =>
    rw [hcode] at h
    cases herror : (lower inp (Target.ofTriple o.triple)).error with
    | none =>
      simp only [herror] at h
      cases h
      exact ⟨rfl, .inr ⟨code, rfl, rfl, rfl, rfl⟩⟩
    | some e =>
      cases e <;> simp only [herror] at h <;> cases h <;> exact ⟨rfl, .inl rfl⟩

theorem emitUnit_eq_ok {u u' : Unit} (h : emitUnit u = .ok u') :
    u'.code = u.code ∧ u'.lowered = u.lowered ∧ u'.hooks = u.hooks := by
  unfold emitUnit at h
  split at h
  · split at h
    · cases h
      exact ⟨rfl, rfl, rfl⟩
    · cases h
  · cases h
    exact ⟨rfl, rfl, rfl⟩

/-- The phases from lowering on. -/
theorem lowered_of_unit {o : Options} {u₀ u : Unit} {inp : Input} {m : Module} {st : Lower.State}
    (hu₀ : u₀.code = none) (h : (do
      let u ← lowerUnit o u₀ inp
      if u.failed || o.stage = Stage.lower then return u
      emitUnit u) = .ok u)
    (hcode : u.code = some (.machine m)) (hst : u.lowered = some st) :
    u.hooks = u₀.hooks ∧ ∃ target, (lower inp target).error = none ∧ (lower inp target).state = st ∧
      Built st.commands m := by
  cases hlower : lowerUnit o u₀ inp with
  | error e =>
    rw [hlower] at h
    cases h
  | ok u₁ =>
    rw [hlower] at h
    have hsame : u.code = u₁.code ∧ u.lowered = u₁.lowered ∧ u.hooks = u₁.hooks := by
      simp only [bind, Except.bind] at h
      split at h
      · cases h
        exact ⟨rfl, rfl, rfl⟩
      · exact emitUnit_eq_ok h
    obtain ⟨hhooks, hold | ⟨code, hnew, hlowered, herror, happly⟩⟩ := lowerUnit_eq_ok hlower
    · rw [hsame.1, hold, hu₀] at hcode
      cases hcode
    · rw [hsame.1, hnew] at hcode
      rw [hsame.2.1, hlowered] at hst
      cases hcode
      cases hst
      refine ⟨hsame.2.2.trans hhooks, _, herror, rfl, ?_⟩
      obtain ⟨m₀, hm₀, happly⟩ := applyAll_eq_ok happly
      unfold emptyCode at hm₀
      split at hm₀
      · cases hm₀
        exact happly
      · cases hm₀

/-- A unit that can be run on the machine is that of an accepted file, lowered without an error. -/
theorem lowered_of_compile {o : Options} {files : Source.FileSet} {u : Unit} {m : Module} {st : Lower.State}
    (h : compile o files file = .ok u) (hcode : u.code = some (.machine m)) (hst : u.lowered = some st) :
    u.hooks = o.hooks ∧ IsAccepted file o.diagnosticLimit ∧ ∃ target,
      (lower (checkedInput file o.diagnosticLimit o.hooks) target).error = none ∧
      (lower (checkedInput file o.diagnosticLimit o.hooks) target).state = st ∧ Built st.commands m := by
  have hroom := room_ofLimit o
  simp only [compile, compileWith, pure_bind, monadLift_self, ite_self, bind_pure] at h
  split at h
  · cases h
    cases hcode
  obtain ⟨parsed, hparsed, h⟩ := bounded_bind_eq_ok h
  obtain rfl := (Ast.parseFile_eq_ok hparsed).2
  split at h
  · cases h
    cases hcode
  have hnil := (failed_report_iff rfl hroom fun _ => isError_of_mem_parse_limit).1 (Bool.eq_false_iff.2 ‹_›)
  rw [hnil] at h
  simp only [report_nil] at h
  split at h
  · cases h
    cases hcode
  have hnil' := (failed_report_iff rfl hroom fun _ => isError_of_mem_resolve).1 (Bool.eq_false_iff.2 ‹_›)
  rw [hnil'] at h
  simp only [report_nil] at h
  obtain ⟨checked, hchecked, h⟩ := bounded_bind_eq_ok h
  obtain rfl := (Check.checkTree_eq_ok hchecked).2
  split at h
  · cases h
    cases hcode
  rename_i hgoes
  rw [Bool.or_eq_true, not_or] at hgoes
  have hnil'' := (failed_report_iff rfl hroom fun _ => Check.isError_of_mem_check
    (Ast.Tree.linked_parse file o.diagnosticLimit) _).1 (Bool.eq_false_iff.2 hgoes.1)
  split at h
  · cases h
    cases hcode
  obtain ⟨hhooks, target, hlower⟩ := lowered_of_unit rfl h hcode hst
  exact ⟨hhooks, ⟨hnil, hnil', hnil''⟩, target, hlower⟩

/-! ### Runs -/

/-- The machine itself comes to an end. -/
def RunError.IsCrash (e : RunError) : Prop := ∃ f, e.failure? = some f ∧ f.code = .crash

/-- A unit can be run, or it is told why not. -/
theorem not_isCrash_of_run {o : Options} {files : Source.FileSet} {u : Unit} (ho : o.hooks.IsRegular)
    (h : compile o files file = .ok u) (ro : RunOptions) {e : RunError} (he : (run ro u).2 = some e) :
    ¬ e.IsCrash := by
  rintro ⟨f, hf, hcrash⟩
  unfold run at he
  split at he
  · rename_i m st hcode hst
    obtain ⟨-, hacc, target, hlower, rfl, hbuilt⟩ := lowered_of_compile h hcode hst
    have hwell := (wellFormed_of_lower (regular_checkedInput file o.diagnosticLimit ho)
      (hacc.ready o.hooks) hlower hbuilt).1
    have hown : m.ReadsOwn := fun g hg hdefined => (hwell.functions g hg hdefined).readsOwn
    split at he
    · cases he
      cases hf
    · dsimp only at he
      split at he
      · rename_i g s hrun
        cases he
        cases hf
        exact code_ne_of_run hown hrun hcrash
      · cases he
        cases hf
      · rename_i v s hrun
        split at he
        · cases he
        · rename_i g hbalanced
          cases he
          cases hf
          unfold Memory.checkBalanced at hbalanced
          dsimp only at hbalanced
          split at hbalanced
          · cases hbalanced
          · cases hbalanced
            cases hcrash
  · cases he
    cases hf

/-- Whatever bytes are compiled for the machine, a unit comes out, unless something without a value is computed
with or compared, or something in them cannot be counted. Running the unit then ends with its result, or it is
told why there is none: the machine itself does not break off. -/
theorem compileSource_ends {o : Options} (ho : o.hooks.IsRegular) (hbackend : o.backend = .machine) (name : String)
    (content : List UInt8) :
    (∃ u, compileSource o name content = .ok u ∧ ∀ ro e, (run ro u).2 = some e → ¬ e.IsCrash) ∨
      (LacksOperand (checkedInput (sourceFile name content) o.diagnosticLimit o.hooks) ∧
        compileSource o name content = .error .crash) ∨
      ∃ w, Exceeds (sourceFile name content) o.diagnosticLimit w ∧
        compileSource o name content = .error (.broken w.message) := by
  have hends := compile_ends ho hbackend (Source.FileSet.addVirtual {} name content).1 (sourceFile name content)
  rcases hends with ⟨u, hu⟩ | hcrash | hexceeds
  · exact .inl ⟨u, hu, fun ro e he => not_isCrash_of_run ho hu ro he⟩
  · exact .inr (.inl hcrash)
  · exact .inr (.inr hexceeds)

set_option maxRecDepth 100000 in
/-- The results of two calls that give none may be compared, as far as the checker is concerned. -/
theorem compileSource_ends_of_voids : ∃ content, IsAccepted (sourceFile "main.ts" content) 100 ∧
    LacksOperand (checkedInput (sourceFile "main.ts" content) 100 {}) ∧
      compileSource { backend := .machine } "main.ts" content = .error .crash := by
  let content := "declare function p(): void;\nif (p() == p()) { }\n".toUTF8.toList
  obtain ⟨hacc, hcrash⟩ : IsAccepted (sourceFile "main.ts" content) 100 ∧
      (compileSource { backend := .machine } "main.ts" content matches .error .crash) = true := by decide +kernel
  refine ⟨content, hacc, ?_⟩
  obtain ⟨u, hu, -⟩ | hlacks | ⟨w, -, hw⟩ :=
    compileSource_ends (o := { backend := .machine }) (by decide) rfl "main.ts" content
  · rw [hu] at hcrash
    exact absurd hcrash Bool.false_ne_true
  · exact hlacks
  · rw [hw] at hcrash
    exact absurd hcrash Bool.false_ne_true

end TypedScript.Compile
