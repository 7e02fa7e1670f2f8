import TypedScript.Proofs.Ast.Limit
import TypedScript.Proofs.Check.Rules
import TypedScript.Proofs.Compile.Total

/-!
# The limit on diagnostics

However few diagnostics are kept, a file with errors is not compiled: the phase that would report the first error,
if nothing were left out, fails, and nothing is made of the file. There is one exception. The parser counts the
error that reaches its limit and does not report it, so under a limit of one its first error goes unnoticed.

* `phasesToError?`: the phases up to the first error, without a limit.
* `compileSource_fails_iff`: under a limit a compilation fails in the same phase, but for the exception.
-/

namespace TypedScript.Compile

open TypedScript.Ir TypedScript.Layout TypedScript.Lower

variable {o : Options} {u : Unit} {file : Source.File}

/-! ### All that is reported is an error -/

theorem isError_of_mem_ofFile {d : Diagnostic} (hd : d ∈ (Token.ofFile file).2) : d.isError = true := by
  have hscan (off : Nat) (bytes : List UInt8) : ∀ d ∈ (Token.scan file.id off bytes).diagnostics,
    d.isError = true := by
    have hreport {off : Nat} {xs : List (Token.Problem × Nat × Nat)} :
        ∀ d ∈ xs.map (Token.report file.id off), d.isError = true := by
      intro d hd
      obtain ⟨x, -, rfl⟩ := List.mem_map.1 hd
      rfl
    intro d hd
    unfold Token.scan at hd
    dsimp only at hd
    split at hd
    · obtain ⟨start, -, rfl⟩ := List.mem_map.1 hd
      rfl
    · rcases List.mem_append.1 hd with hd | hd
      · obtain ⟨start, -, rfl⟩ := List.mem_map.1 hd
        rfl
      · exact hreport d hd
  unfold Token.ofFile at hd
  generalize 0 = off, file.content = bytes at hd
  fun_induction Token.scanAll file.id off bytes with
  | case1 off bytes _ s => exact hscan off bytes d hd
  | case2 off bytes b rest _ s tokens diagnostics hrest ih =>
    rcases List.mem_append.1 hd with hd | hd
    · exact hscan off bytes d hd
    · exact ih (hrest ▸ hd)

/-- If the resolver had reported errors only, it still has. -/
def ErrorsOnly (r r' : Binding.Resolver) : Prop :=
  (∀ d ∈ r.diagnostics, d.isError = true) → ∀ d ∈ r'.diagnostics, d.isError = true

instance : Std.Refl ErrorsOnly := ⟨fun _ => id⟩

instance : IsTrans Binding.Resolver ErrorsOnly := ⟨fun _ _ _ h h' => h' ∘ h⟩

open Binding in
theorem isError_of_mem_resolve {t : Ast.Tree} {d : Diagnostic} (hd : d ∈ (resolve t).diagnostics) :
    d.isError = true := by
  have hreport (span : Source.Span) (p : Problem) (notes : List Diagnostic.Note) :
    Leaves ErrorsOnly (report span p notes) := by
    intro r hr d hd
    rcases List.mem_append.1 hd with hd | hd
    · exact hr d hd
    · obtain rfl := List.mem_singleton.1 hd
      rfl
  have hwalk : Leaves ErrorsOnly (walk t t.root) := by
    refine leaves_walk (fun d r => ?_) (fun act h r => h { r with scopes := {} :: r.scopes }) (fun x name _ r => ?_)
      (fun x name r => ?_) t.root
    · rcases declare_cases t d r with ⟨hrun, -⟩ | ⟨span, p, notes, hrun⟩ | ⟨top, outer, top', -, hrun, -⟩ <;>
        rw [hrun]
      · exact id
      · exact hreport span p notes r
      · exact id
    · rcases resolveValue_cases t x name r with ⟨p, hrun⟩ | ⟨d, -, hrun⟩ <;> rw [hrun]
      · exact hreport _ p _ r
      · exact id
    · rcases resolveType_cases t x name r with hrun | ⟨p, hrun⟩ | ⟨d, hrun⟩ <;> rw [hrun]
      · exact id
      · exact hreport _ p _ r
      · exact id
  exact hwalk {} (fun _ h => absurd h List.not_mem_nil) d hd

/-- Lists of errors contain one if they are not empty. -/
theorem eq_nil_of_any_isError {ds : List Diagnostic} (hsevere : ∀ d ∈ ds, d.isError = true)
    (h : ds.any Diagnostic.isError = false) : ds = [] := by
  cases ds with
  | nil => rfl
  | cons d ds => simp [hsevere d List.mem_cons_self] at h

/-! ### Phases without a limit -/

/-- The names of the phases up to the first that reports errors, if there is one, when nothing that is reported is
left out: the parser has no limit, and a phase fails if there is an error among all that it reports. A phase that
breaks off reports nothing. -/
def phasesToError? (o : Options) (file : Source.File) : Option (List String) := do
  let parsed ← (Ast.parseFile file 0).toOption
  if parsed.diagnostics.any Diagnostic.isError then return ["parse"]
  let resolved := Binding.resolve parsed.tree
  if resolved.diagnostics.any Diagnostic.isError then return ["parse", "resolve"]
  let checked ← (Check.checkTree parsed.tree resolved.table).toOption
  if checked.diagnostics.any Diagnostic.isError then return ["parse", "resolve", "check"]
  if o.stage = .check then none
  else if let .unsupported _ := o.backend then none
  else
    let r := lower (checkedInput file 0 o.hooks) (Target.ofTriple o.triple)
    match (emptyCode o file.path).applyAll r.state.commands, r.error with
    | .ok _, some .missingParameter => none
    | .ok _, some _ => return ["parse", "resolve", "check", "capture", "lower"]
    | _, _ => none

/-- The unit is what is left of a file with errors: the phases that were run are the given ones, and nothing was
made. -/
structure Fails (u : Unit) (phases : List String) : Prop where
  failed : u.failed = true
  phases : u.phases.map (·.name) = phases
  lowered : u.lowered = none
  code : u.code = none
  ir : u.ir = ""

/-- The parser reports nothing at its limit, although there are errors: the first of them reaches it. -/
def IsSilenced (limit : Nat) (file : Source.File) : Prop :=
  limit = 1 ∧ (Token.ofFile file).2 = [] ∧ Ast.syntaxErrors file ≠ []

theorem diagnosticLimit_pos (o : Options) : 0 < o.diagnosticLimit := by
  unfold Options.diagnosticLimit
  split <;> omega

theorem isError_of_mem_parse {d : Diagnostic} (hd : d ∈ (Ast.parse file 0).diagnostics) : d.isError = true := by
  rw [Ast.diagnostics_parse_zero] at hd
  exact (List.mem_append.1 hd).elim isError_of_mem_ofFile Ast.isError_of_mem_syntaxErrors

/-- A bag that is empty has room for an error. -/
theorem hasErrors_addAll {b : Diagnostic.Bag} {ds : List Diagnostic} (hitems : b.items = []) (hlimit : 0 < b.limit)
    (hsevere : ∀ d ∈ ds, d.isError = true) : (b.addAll ds).hasErrors = true ↔ ds ≠ [] := by
  unfold Diagnostic.Bag.addAll Diagnostic.Bag.hasErrors
  cases ds with
  | nil => simp [hitems]
  | cons d ds =>
    obtain ⟨limit, hsucc⟩ := Nat.exists_eq_succ_of_ne_zero (Nat.ne_of_gt hlimit)
    simp [hitems, hsucc, hsevere d List.mem_cons_self]

/-- A unit that reports errors has failed. -/
theorem failed_report_iff {ds : List Diagnostic} (hitems : u.bag.items = []) (hlimit : 0 < u.bag.limit)
    (hsevere : ∀ d ∈ ds, d.isError = true) : (u.report ds).failed = false ↔ ds = [] := by
  rw [← not_iff_not, Bool.not_eq_false]
  exact hasErrors_addAll hitems hlimit hsevere

/-- What the parser reports under a limit is nothing only if there is nothing to report, or in the exceptional
case. -/
theorem diagnostics_parse_eq_nil_iff {limit : Nat} (hpos : 0 < limit) :
    (Ast.parse file limit).diagnostics = [] ↔ (Ast.parse file 0).diagnostics = [] ∨ IsSilenced limit file := by
  rw [Ast.diagnostics_parse file hpos, Ast.diagnostics_parse_zero, List.append_eq_nil_iff, List.append_eq_nil_iff,
    List.take_eq_nil_iff]
  unfold IsSilenced
  constructor
  · rintro ⟨hlexical, hone | hnone⟩
    · by_cases hnone : Ast.syntaxErrors file = []
      · exact .inl ⟨hlexical, hnone⟩
      · exact .inr ⟨by omega, hlexical, hnone⟩
    · exact .inl ⟨hlexical, hnone⟩
  · rintro (⟨hlexical, hnone⟩ | ⟨rfl, hlexical, -⟩)
    · exact ⟨hlexical, .inr hnone⟩
    · exact ⟨hlexical, .inl rfl⟩

/-- Without errors the limit of the parser is of no matter. -/
theorem parse_eq_of_nil {limit : Nat} (hpos : 0 < limit) (hnil : (Ast.parse file 0).diagnostics = []) :
    Ast.parse file limit = Ast.parse file 0 := by
  rw [Ast.diagnostics_parse_zero, List.append_eq_nil_iff] at hnil
  exact Ast.parse_eq_parse file (by rw [hnil.2]; exact hpos)

/-! ### Phases under a limit -/

/-- Lowering that ends with an error is reported, and gives nothing. -/
theorem lowerUnit_fails {inp : Input} {e : Lower.Error} {code : Code} (hitems : u.bag.items = [])
    (hlimit : 0 < u.bag.limit) (hempty : u.lowered = none ∧ u.code = none ∧ u.ir = "")
    (hcode : (emptyCode o u.path).applyAll (lower inp (Target.ofTriple o.triple)).state.commands = .ok code)
    (herror : (lower inp (Target.ofTriple o.triple)).error = some e) (hne : e ≠ .missingParameter) :
    ∃ u', lowerUnit o u inp = .ok u' ∧ Fails u' (u.phases.map (·.name) ++ ["lower"]) := by
  have hsevere : (u.bag.addAll [e.diagnostic u.file.id]).hasErrors = true :=
    (hasErrors_addAll hitems hlimit (by simp [Lower.Error.diagnostic, Diagnostic.isError])).2 (by simp)
  have hrun : lowerUnit o u inp = .ok ((u.report [e.diagnostic u.file.id]).finish "lower" "failed" []
      (lower inp (Target.ofTriple o.triple)).state.records) := by
    unfold lowerUnit
    dsimp only
    rw [hcode]
    cases e with
    | missingParameter => exact absurd rfl hne
    | _ => rw [herror]; rfl
  refine ⟨_, hrun, hsevere, ?_, hempty.1, hempty.2.1, hempty.2.2⟩
  simp [Unit.finish, Unit.report]

/-- If lowering fails, nothing follows. -/
theorem unit_fails {inp : Input} {phases : List String} (h : ∃ u', lowerUnit o u inp = .ok u' ∧ Fails u' phases) :
    ∃ u', (do
      let u ← lowerUnit o u inp
      if u.failed || o.stage = Stage.lower then return u
      emitUnit u) = .ok u' ∧ Fails u' phases := by
  obtain ⟨u', hlower, hfails⟩ := h
  refine ⟨u', ?_, hfails⟩
  rw [hlower]
  simp [bind, Except.bind, hfails.failed, pure, Except.pure]

theorem room_ofLimit (o : Options) : 0 < (Diagnostic.Bag.ofLimit o.diagnosticLimit).limit := by
  have hpos := diagnosticLimit_pos o
  simp only [Diagnostic.Bag.ofLimit, Diagnostic.Bag.maxLimit]
  omega

/-- An empty bag has errors once errors have been reported. -/
theorem hasErrors_ofLimit {ds : List Diagnostic} (hsevere : ∀ d ∈ ds, d.isError = true) (hne : ds ≠ []) :
    ((Diagnostic.Bag.ofLimit o.diagnosticLimit).addAll ds).hasErrors = true :=
  (hasErrors_addAll rfl (room_ofLimit o) hsevere).2 hne

theorem isError_of_mem_parse_limit {d : Diagnostic} (hd : d ∈ (Ast.parse file o.diagnosticLimit).diagnostics) :
    d.isError = true := by
  rw [Ast.diagnostics_parse file (diagnosticLimit_pos o)] at hd
  rcases List.mem_append.1 hd with hd | hd
  · exact isError_of_mem_ofFile hd
  · exact Ast.isError_of_mem_syntaxErrors (List.mem_of_mem_take hd)

/-- What breaks off reports nothing. -/
theorem eq_ok_of_toOption_bind {α β ε : Type} {result : Except ε α} {f : α → Option β} {b : β}
    (h : (result.toOption >>= f) = some b) : ∃ a, result = .ok a ∧ f a = some b := by
  cases result with
  | error e => cases h
  | ok a => exact ⟨a, rfl, h⟩

theorem compile_fails (hgo : o.isCancelled = false) (files : Source.FileSet) {phases : List String}
    (hfail : phasesToError? o file = some phases) (hloud : ¬ IsSilenced o.diagnosticLimit file)
    (hfits : Ast.Fits file o.diagnosticLimit) : ∃ u, compile o files file = .ok u ∧ Fails u phases := by
  have hpos := diagnosticLimit_pos o
  have hnone : ¬ (Diagnostic.Bag.ofLimit o.diagnosticLimit).hasErrors = true := Bool.false_ne_true
  unfold phasesToError? at hfail
  obtain ⟨parsed, hparsed, hfail⟩ := eq_ok_of_toOption_bind hfail
  obtain rfl := (Ast.parseFile_eq_ok hparsed).2
  simp only [compile, compileWith, pure_bind, monadLift_self, ite_self, bind_pure]
  rw [if_neg (by simp [hgo]), Ast.parseFile_of_fits hfits]
  simp only [bounded, Except.mapError, bind, Except.bind]
  split at hfail
  · rename_i herrors
    obtain rfl := Option.some.inj hfail
    have hreported : (Ast.parse file o.diagnosticLimit).diagnostics ≠ [] := by
      refine fun hnil => ((diagnostics_parse_eq_nil_iff hpos).1 hnil).elim (fun hnil => ?_) hloud
      simp [hnil] at herrors
    split
    · exact ⟨_, rfl, ‹_›, rfl, rfl, rfl, rfl⟩
    · exact absurd (hasErrors_ofLimit (fun _ => isError_of_mem_parse_limit) hreported) ‹_›
  have hnil := eq_nil_of_any_isError (fun _ => isError_of_mem_parse) (Bool.eq_false_iff.2 ‹_›)
  rw [parse_eq_of_nil hpos hnil, hnil]
  simp only [report_nil]
  split
  · exact absurd ‹_› hnone
  dsimp only at hfail
  split at hfail
  · rename_i herrors
    obtain rfl := Option.some.inj hfail
    split
    · exact ⟨_, rfl, ‹_›, rfl, rfl, rfl, rfl⟩
    · refine absurd (hasErrors_ofLimit (fun _ => isError_of_mem_resolve) fun hnil => ?_) ‹_›
      simp [hnil] at herrors
  have hnil := eq_nil_of_any_isError (fun _ => isError_of_mem_resolve) (Bool.eq_false_iff.2 ‹_›)
  rw [hnil]
  simp only [report_nil]
  split
  · exact absurd ‹_› hnone
  obtain ⟨checked, hchecked, hfail⟩ := eq_ok_of_toOption_bind hfail
  rw [hchecked]
  obtain rfl := (Check.checkTree_eq_ok hchecked).2
  dsimp only
  split at hfail
  · rename_i herrors
    obtain rfl := Option.some.inj hfail
    have hreported := hasErrors_ofLimit (o := o)
      (fun _ => Check.isError_of_mem_check (Ast.Tree.linked_parse file 0)
      (Binding.resolve (Ast.parse file 0).tree).table)
      (fun hnil => by simp [hnil] at herrors)
    split
    · exact ⟨_, rfl, hreported, rfl, rfl, rfl, rfl⟩
    · rename_i hgoes
      exact absurd (by rw [Bool.or_eq_true]; exact .inl hreported) hgoes
  have hnil := eq_nil_of_any_isError
    (fun _ => Check.isError_of_mem_check (Ast.Tree.linked_parse file 0)
    (Binding.resolve (Ast.parse file 0).tree).table)
    (Bool.eq_false_iff.2 ‹_›)
  rw [hnil]
  simp only [report_nil]
  split at hfail
  · cases hfail
  rename_i hstage
  split
  · rename_i hstops
    rcases Bool.or_eq_true_iff.1 hstops with herrors | hcheck
    · exact absurd herrors hnone
    · exact absurd (of_decide_eq_true hcheck) hstage
  split
  · rename_i hname
    simp only [hname, reduceCtorEq] at hfail
  split at hfail
  · cases hfail
  split at hfail
  · cases hfail
  · rename_i hcode herror
    obtain rfl := Option.some.inj hfail
    exact unit_fails (lowerUnit_fails rfl (room_ofLimit o) ⟨rfl, rfl, rfl⟩ hcode herror ‹_›)
  · cases hfail

/-! ### The exception -/

theorem phases_of_lowerUnit {u' : Unit} {inp : Input} (h : lowerUnit o u inp = .ok u') :
    u.phases <+: u'.phases := by
  unfold lowerUnit at h
  dsimp only at h
  cases hcode : (emptyCode o u.path).applyAll (lower inp (Target.ofTriple o.triple)).state.commands with
  | error e =>
    rw [hcode] at h
    cases h
  | ok code =>
    rw [hcode] at h
    cases herror : (lower inp (Target.ofTriple o.triple)).error with
    | none =>
      simp only [herror] at h
      cases h
      exact List.prefix_append _ _
    | some e => cases e <;> simp only [herror] at h <;> cases h <;> exact List.prefix_append _ _

theorem phases_of_emitUnit {u' : Unit} (h : emitUnit u = .ok u') : u.phases <+: u'.phases := by
  unfold emitUnit at h
  split at h
  · split at h
    · cases h
      exact List.prefix_append _ _
    · cases h
  · cases h
    exact List.prefix_refl _

/-- The phases from lowering on. -/
theorem phases_of_unit {u₀ : Unit} {inp : Input} (h : (do
      let u ← lowerUnit o u₀ inp
      if u.failed || o.stage = Stage.lower then return u
      emitUnit u) = .ok u) : u₀.phases <+: u.phases := by
  cases hlower : lowerUnit o u₀ inp with
  | error e =>
    rw [hlower] at h
    cases h
  | ok u₁ =>
    rw [hlower] at h
    simp only [bind, Except.bind] at h
    split at h
    · cases h
      exact phases_of_lowerUnit hlower
    · exact (phases_of_lowerUnit hlower).trans (phases_of_emitUnit h)

/-- What is compiled has been counted. -/
theorem fits_of_compile (hgo : o.isCancelled = false) {files : Source.FileSet} (h : compile o files file = .ok u) :
    Ast.Fits file o.diagnosticLimit := by
  simp only [compile, compileWith, pure_bind, monadLift_self, ite_self, bind_pure] at h
  rw [if_neg (by simp [hgo])] at h
  obtain ⟨parsed, hparsed, -⟩ := bounded_bind_eq_ok h
  exact (Ast.parseFile_eq_ok hparsed).1

/-- If the parser reports nothing, names are resolved. -/
theorem phases_of_compile (hgo : o.isCancelled = false) {files : Source.FileSet}
    (hnil : (Ast.parse file o.diagnosticLimit).diagnostics = []) (h : compile o files file = .ok u) :
    ["parse", "resolve"] <+: u.phases.map (·.name) := by
  have hnone : ¬ (Diagnostic.Bag.ofLimit o.diagnosticLimit).hasErrors = true := Bool.false_ne_true
  simp only [compile, compileWith, pure_bind, monadLift_self, ite_self, bind_pure] at h
  rw [if_neg (by simp [hgo])] at h
  obtain ⟨parsed, hparsed, h⟩ := bounded_bind_eq_ok h
  obtain rfl := (Ast.parseFile_eq_ok hparsed).2
  rw [hnil] at h
  simp only [report_nil] at h
  split at h
  · exact absurd ‹_› hnone
  split at h
  · cases h
    exact List.prefix_refl _
  obtain ⟨checked, -, h⟩ := bounded_bind_eq_ok h
  split at h
  · cases h
    exact ⟨["check"], rfl⟩
  split at h
  · cases h
    exact ⟨["check", "capture"], rfl⟩
  exact List.IsPrefix.trans ⟨["check", "capture"], rfl⟩ ((phases_of_unit h).map Phase.name)

/-- However few diagnostics are kept, a compilation fails in the phase that reports the first error when nothing
is left out, and nothing is made of the file. The one exception is a limit of one when the first error is the
parser's. A parser that stops at its limit must still be able to number its nodes. -/
theorem compileSource_fails_iff (hgo : o.isCancelled = false) (name : String) (content : List UInt8)
    {phases : List String} (hfail : phasesToError? o (sourceFile name content) = some phases) :
    (∃ u, compileSource o name content = .ok u ∧ Fails u phases) ↔
      ¬ IsSilenced o.diagnosticLimit (sourceFile name content) ∧ Ast.Fits
        (sourceFile name content) o.diagnosticLimit := by
  constructor
  · rintro ⟨u, hu, hfails⟩
    refine ⟨fun hsilenced => ?_, fits_of_compile hgo hu⟩
    have hnil := (diagnostics_parse_eq_nil_iff (diagnosticLimit_pos o)).2 (.inr hsilenced)
    have hphases : ["parse", "resolve"] <+: phases := hfails.phases ▸ phases_of_compile hgo hnil hu
    obtain ⟨hone, hlexical, hsyntax⟩ := hsilenced
    have herrors : (Ast.parse (sourceFile name content) 0).diagnostics.any Diagnostic.isError = true := by
      refine Decidable.byContradiction fun hnone => hsyntax ?_
      have hempty := eq_nil_of_any_isError (fun _ => isError_of_mem_parse) (Bool.eq_false_iff.2 hnone)
      rw [Ast.diagnostics_parse_zero, List.append_eq_nil_iff] at hempty
      exact hempty.2
    unfold phasesToError? at hfail
    obtain ⟨parsed, hparsed, hfail⟩ := eq_ok_of_toOption_bind hfail
    obtain rfl := (Ast.parseFile_eq_ok hparsed).2
    rw [if_pos herrors] at hfail
    obtain rfl := Option.some.inj hfail
    exact absurd hphases.length_le (by simp)
  · rintro ⟨hloud, hfits⟩
    exact compile_fails hgo _ hfail hloud hfits

instance (limit : Nat) (file : Source.File) : Decidable (IsSilenced limit file) :=
  inferInstanceAs (Decidable (limit = 1 ∧ (Token.ofFile file).2 = [] ∧ Ast.syntaxErrors file ≠ []))

set_option maxRecDepth 100000 in
/-- A type without a finite layout is noticed only in lowering, also if one diagnostic is kept. -/
theorem compileSource_fails_of_recursive : ∃ content,
    phasesToError? { backend := .machine, maxDiagnostics := 1 } (sourceFile "main.ts" content) =
      some ["parse", "resolve", "check", "capture", "lower"] ∧ ¬ IsSilenced 1 (sourceFile "main.ts" content) ∧
        ∃ u, compileSource { backend := .machine, maxDiagnostics := 1 } "main.ts" content = .ok u ∧
          Fails u ["parse", "resolve", "check", "capture", "lower"] := by
  let content := "type A = { a: A };\nlet x: A = null;\n".toUTF8.toList
  have hphases : phasesToError? { backend := .machine, maxDiagnostics := 1 } (sourceFile "main.ts" content) =
      some ["parse", "resolve", "check", "capture", "lower"] := by decide +kernel
  have hloud : ¬ IsSilenced 1 (sourceFile "main.ts" content) := by decide +kernel
  have hfits : Ast.Fits (sourceFile "main.ts" content) 1 := ⟨by decide +kernel, by decide +kernel⟩
  exact ⟨content, hphases, hloud, (compileSource_fails_iff rfl "main.ts" content hphases).2 ⟨hloud, hfits⟩⟩

end TypedScript.Compile
