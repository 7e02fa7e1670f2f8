import TypedScript.Proofs.Check.Rules
import TypedScript.Proofs.Compile.Backends
import TypedScript.Proofs.Lower.Complete
import TypedScript.Proofs.Lower.Traced

/-!
# Functions are called as they are declared

A call has the signature of the type of what is called, a symbol that of the type of the function for which it was
declared first. What is called by a name has the type of the function that the name is bound to. So the two agree,
but for two ways around: functions that are declared without a body share a symbol if they have one name, and an
assignment that is called may have another type than what it assigns, for a variable has none before its
declaration is met.

* `ExternsAgree`, `CalleesAgree`: what is asked of a program, that neither happens.
* `lower_callsAgree`: a symbol that is called is declared with the signature of the call.
-/

namespace TypedScript.Compile

open TypedScript.Ast TypedScript.Ir TypedScript.Layout TypedScript.Lower TypedScript.Machine

variable {inp : Input} {file : Source.File} {limit : Nat}

/-! ### What is asked of a program -/

/-- The name of a function that is declared without a body. -/
def externName? (t : Tree) (id : Nat) : Option String :=
  match t.form? id with
  | some (.declareFunc name ..) => some name
  | _ => none

/-- Functions that are declared without a body have one signature if they have one name. -/
def ExternsAgree (inp : Input) : Prop :=
  ∀ fn ∈ inp.tree.reachedOutsideTypes, ∀ fn' ∈ inp.tree.reachedOutsideTypes, externName? inp.tree fn ≠ none →
    externName? inp.tree fn = externName? inp.tree fn' →
      profile? inp.types (typeOf inp fn) = profile? inp.types (typeOf inp fn')

instance (inp : Input) : Decidable (ExternsAgree inp) := inferInstanceAs (Decidable (∀ _ ∈ _, ∀ _ ∈ _, _))

/-- What a node calls. -/
def callee? (t : Tree) (id : Nat) : Option Nat :=
  match t.form? id with
  | some (.call callee _) => some callee
  | _ => none

/-- What is left of an expression behind at most `fuel` assignments. -/
def assigned (t : Tree) : Nat → Nat → Nat
  | 0, id => id
  | fuel + 1, id =>
    match t.form? id with
    | some (.assign _ value) => assigned t fuel value
    | _ => id

/-- The expression is a function, or a name that is not that of a variable. -/
def isFunctionValue (inp : Input) (id : Nat) : Bool :=
  match inp.tree.form? id with
  | some (.arrowFunc ..) => true
  | some (.ident _) => (inp.table.decl? id).all (isNamedFunction inp.tree)
  | _ => false

/-- What is called by way of assignments has the signature of the function that is assigned, if it is one. -/
def CalleeAgrees (inp : Input) (callee : Nat) : Prop :=
  isFunctionValue inp (assigned inp.tree callee callee) = true →
    profile? inp.types (typeOf inp callee) = profile? inp.types (typeOf inp (assigned inp.tree callee callee))

instance (inp : Input) (callee : Nat) : Decidable (CalleeAgrees inp callee) := inferInstanceAs (Decidable (_ → _))

/-- The callees of all calls agree with the functions that are assigned to get them. -/
def CalleesAgree (inp : Input) : Prop := ∀ id < inp.tree.size + 1, ∀ callee ∈ callee? inp.tree id,
    CalleeAgrees inp callee

instance (inp : Input) : Decidable (CalleesAgree inp) := inferInstanceAs (Decidable (∀ _ < _, ∀ _ ∈ _, _))

/-- The symbol that a command calls, with the signature of the call. -/
def directCall? : Command → Option (String × Sig)
  | .instr (.call sig (.func name) _) => some (name, sig)
  | _ => none

/-- All calls of symbols. -/
def directCalls (commands : Array Command) : List (String × Sig) := commands.toList.filterMap directCall?

theorem exists_of_mem_directCalls {commands : Array Command} {call : String × Sig}
    (h : call ∈ directCalls commands) :
    ∃ args, .instr (.call call.2 (.func call.1) args) ∈ commands := by
  obtain ⟨c, hc, hcall⟩ := List.mem_filterMap.1 h
  unfold directCall? at hcall
  split at hcall
  · obtain rfl := Option.some.inj hcall
    exact ⟨_, Array.mem_toList_iff.1 hc⟩
  · cases hcall

/-! ### What is called -/

/-- Assignments are nested no deeper than their numbers. The induction is on the assignments. -/
theorem assigned_eq {t : Tree} (hlinked : t.Linked) {id x : Nat} (h : Assigned t id x)
    (hx : ∀ target value, t.form? x ≠ some (.assign target value)) {fuel : Nat} (hfuel : id ≤ fuel) :
    assigned t fuel id = x := by
  induction h generalizing fuel with
  | self id =>
    cases fuel with
    | zero => rfl
    | succ fuel =>
      rw [assigned]
      split
      · rename_i htarget
        exact absurd htarget (hx _ _)
      · rfl
  | @assign id target value x hf _ ih =>
    obtain ⟨-, hlt, -⟩ := hlinked.fits hf (.expression, value) (by simp [Form.parts])
    cases fuel with
    | zero => omega
    | succ fuel =>
      rw [assigned, hf]
      exact ih hx (by omega)

/-- The symbol is that of the function: the one that its body is given, or the name by which it is declared. -/
def Owns (inp : Input) (fn : Nat) (name : String) : Prop :=
  inp.tree.isFunction fn = true ∧ name = codeName inp.tree fn ∨
    fn ∈ inp.tree.reachedOutsideTypes ∧ externName? inp.tree fn = some name

theorem form?_of_externName? {t : Tree} {fn : Nat} {name : String} (h : externName? t fn = some name) :
    ∃ params result, t.form? fn = some (.declareFunc name params result) := by
  unfold externName? at h
  split at h
  · rename_i hform
    obtain rfl := Option.some.inj h
    exact ⟨_, _, hform⟩
  · cases h

namespace Owns

variable {fn fn' : Nat} {name : String}

/-- The symbol is not taken otherwise. -/
theorem notMem (h : Owns inp fn name) (hinp : inp.Regular)
    (hforeign : ∀ id ∈ inp.tree.reachedOutsideTypes, ∀ name params result,
    inp.tree.form? id = some (.declareFunc name params result) → name ∉ reservedNames inp.options) :
    name ∉ reservedNames inp.options := by
  rcases h with ⟨hfun, rfl⟩ | ⟨hreached, hname⟩
  · exact hinp.apart fn hfun
  · obtain ⟨params, result, hextern⟩ := form?_of_externName? hname
    exact hforeign fn hreached name params result hextern

/-- Functions of one symbol have one signature. -/
theorem agree (h : Owns inp fn name) (h' : Owns inp fn' name) (hinp : inp.Regular) (hexterns : ExternsAgree inp) :
    profile? inp.types (typeOf inp fn) = profile? inp.types (typeOf inp fn') := by
  -- the symbol of a body has a dot, a name that is declared has none
  have hnodot {x : Nat} (hname : externName? inp.tree x = some name) : '.' ∉ name.toList := by
    obtain ⟨params, result, hextern⟩ := form?_of_externName? hname
    exact hinp.foreign x name params result hextern
  rcases h with ⟨hfun, hname⟩ | ⟨hreached, hname⟩ <;> rcases h' with ⟨hfun', hname'⟩ | ⟨hreached', hname'⟩
  · rw [codeName_inj hfun hfun' (hname.symm.trans hname')]
  · exact absurd (hname ▸ dot_mem_codeName hfun) (hnodot hname')
  · exact absurd (hname' ▸ dot_mem_codeName hfun') (hnodot hname)
  · exact hexterns fn hreached fn' hreached' (by simp [hname]) (hname.trans hname'.symm)

end Owns

theorem declaresFunction_of_isNamedFunction {t : Tree} {fn : Nat} (h : isNamedFunction t fn = true) :
    Check.DeclaresFunction t fn := by
  unfold isNamedFunction at h
  unfold Check.DeclaresFunction Binding.symbolKind
  split at h
  · rename_i hform
    rw [hform]
    exact .inr rfl
  · rename_i hform
    rw [hform]
    exact .inl rfl
  · cases h

/-- What stands for a function is one, or its name, and no assignment. -/
theorem isFunctionValue_of_denotes {x fn : Nat} (h : Denotes inp x fn) :
    isFunctionValue inp x = true ∧ ∀ target value, inp.tree.form? x ≠ some (.assign target value) := by
  unfold isFunctionValue
  cases h with
  | arrow hform _ =>
    rw [hform]
    exact ⟨rfl, fun _ _ h => by cases h⟩
  | bound hform hdecl hfn =>
    rw [hform]
    exact ⟨by simp [hdecl, hfn], fun _ _ h => by cases h⟩
  | unbound hform hdecl =>
    rw [hform]
    exact ⟨by simp [hdecl], fun _ _ h => by cases h⟩

/-- A type that is missing has no signature. -/
theorem profile?_zero (types : Ty.Interner) : profile? types 0 = none := by
  rw [profile?, Ty.Interner.resolved?_zero]

/-- What stands for a function has its type, if it has a signature at all. -/
theorem profile?_of_denotes {x fn : Nat} {p : Scalar × List Scalar} {hooks : Lower.Options}
    (h : Denotes (checkedInput file limit hooks) x fn)
    (hx : profile? (checkedInput file limit hooks).types (typeOf (checkedInput file limit hooks) x) = some p) :
    profile? (checkedInput file limit hooks).types (typeOf (checkedInput file limit hooks) fn) = some p := by
  have hlinked := Ast.Tree.linked_parse file limit
  have hne : typeOf (checkedInput file limit hooks) x ≠ 0 := by
    intro hzero
    rw [hzero, profile?_zero] at hx
    cases hx
  cases h with
  | arrow _ hfn => exact hfn ▸ hx
  | @bound name hname hdecl hfn =>
    have huse : Check.UsesFunction ⟨(Ast.parse file limit).tree,
      (Binding.resolve (Ast.parse file limit).tree).table⟩ x fn :=
      ⟨⟨name, hname⟩, hdecl, declaresFunction_of_isNamedFunction hfn⟩
    have htype : typeOf (checkedInput file limit hooks) x = typeOf (checkedInput file limit hooks) fn :=
      Check.typeOf_use hlinked huse hne
    rw [← htype, hx]
  | unbound hname hdecl => exact absurd (Check.typeOf_unbound hlinked hname hdecl) hne

/-! ### Calls and declarations -/

/-- The runtime gives a symbol one signature. -/
theorem isRuntime_unique {o : Lower.Options} (ho : (reservedNames o).Nodup) {name : String} {sig sig' : Sig}
    (h : IsRuntime o name sig) (h' : IsRuntime o name sig') : sig = sig' := by
  have hallocate : o.allocate ∉ o.release :: helperNames := by
    simp only [reservedNames, List.cons_append, List.nil_append, List.nodup_cons] at ho
    exact ho.2.1
  rcases h with ⟨rfl, rfl⟩ | ⟨hname, rfl⟩ <;> rcases h' with ⟨hname', rfl⟩ | ⟨hname', rfl⟩
  · rfl
  · exact absurd hname' hallocate
  · exact absurd (hname' ▸ hname) hallocate
  · rfl

theorem mem_of_isRuntime {o : Lower.Options} {name : String} {sig : Sig} (h : IsRuntime o name sig) :
    name ∈ reservedNames o := by
  rcases h with ⟨rfl, -⟩ | ⟨hname, -⟩
  · exact List.mem_cons_of_mem _ List.mem_cons_self
  · exact List.mem_cons_of_mem _ (List.mem_cons_of_mem _ hname)

/-- The runtime has no function of the name of the entry. -/
theorem not_isRuntime_entry {o : Lower.Options} (ho : (reservedNames o).Nodup) {sig : Sig} :
    ¬ IsRuntime o o.entry sig := by
  simp only [reservedNames, List.cons_append, List.nil_append, List.nodup_cons] at ho
  rintro (⟨heq, -⟩ | ⟨hmem, -⟩)
  · exact ho.1 (heq ▸ List.mem_cons_self)
  · exact ho.1 (List.mem_cons_of_mem _ hmem)

/-- A symbol that a command declares is known from then on. -/
theorem isSome_of_declareFunc {cs : Array Command} {name : String} {sig : Sig} (h : .declareFunc name sig ∈ cs) :
    ((Ledger.of cs).symbols.lookup name).isSome := by
  have hkeep (c : Command) {l : Ledger} (hl : (l.symbols.lookup name).isSome) :
    ((l.next c).symbols.lookup name).isSome := by
    cases c with
    | declareFunc name' sig' =>
      simp only [Ledger.next]
      rw [lookup_symbolsAfter sig' hl]
      exact hl
    | _ => exact hl
  have hfold (cs : List Command) (l : Ledger) (hl : (l.symbols.lookup name).isSome ∨ .declareFunc name sig ∈ cs) :
      ((cs.foldl Ledger.next l).symbols.lookup name).isSome := by
    induction cs generalizing l with
    | nil => exact hl.resolve_right List.not_mem_nil
    | cons c cs ih =>
      refine ih _ ?_
      rcases hl with hl | hmem
      · exact .inl (hkeep c hl)
      · rcases List.mem_cons.1 hmem with rfl | hmem
        · exact .inl (lookup_symbolsAfter_self _ _ _)
        · exact .inr hmem
  rw [Ledger.of, ← Array.foldl_toList]
  exact hfold _ _ (.inr (Array.mem_toList_iff.2 h))

/-- Code that has carried out what was commanded has the signatures that lowering noted. -/
theorem sig?_of_applyAll (hinp : inp.Regular) (hready : inp.Ready) {target : Target}
    (hlower : (lower inp target).error = none) {o : Options} {path : String} {c : Code}
    (hc : (emptyCode o path).applyAll (lower inp target).state.commands = .ok c) (name : String) : c.sig? name =
    (lower inp target).state.symbols.lookup name := by
  have hordered := (completes_lowerProgram hinp hready (runs_of_lower hlower)).1.ordered
  have hmachine {m : Module} (hm : Built (lower inp target).state.commands m) :
      (Code.machine m).sig? name = (lower inp target).state.symbols.lookup name := by
    rw [Code.sig?, find?_map_sig, (agrees_of_built hordered.accounted hm).listed.sigs, ← hordered.symbols]
    rfl
  have happlied {m : Module} (hm : Built (lower inp target).state.commands m) :
      (Code.machine {}).applyAll (lower inp target).state.commands = .ok (.machine m) := by
    rw [applyAll_machine, hm]
    rfl
  have hllvm := hc
  unfold emptyCode at hc
  split at hc
  · rw [applyAll_machine] at hc
    cases hm : Module.applyAll {} (lower inp target).state.commands with
    | error e =>
      rw [hm] at hc
      cases hc
    | ok m =>
      rw [hm] at hc
      obtain rfl := Except.ok.inj hc
      exact hmachine hm
  · have hl := hc
    rw [Code.applyAll_llvm] at hl
    cases hm : ({ sourceName := path, triple := o.triple } : Llvm.Module).applyAll
      (lower inp target).state.commands with
    | error e =>
      rw [hm] at hl
      cases hl
    | ok l =>
      obtain ⟨m, hbuilt⟩ := built_of_llvm hinp hm
      rw [← (Code.agrees_of_applyAll (happlied hbuilt) hc).sig? name]
      exact hmachine hbuilt

variable {hooks : Lower.Options}

/-- The callee of a call that stands for a symbol stands for a function of the symbol, with the signature of the
call. -/
theorem exists_of_standsFor {codes : List (Nat × String)} {id callee : Nat} {args : List Nat}
    {name : String} {sig : Sig} (hcallees : CalleesAgree (checkedInput file limit hooks))
    (hform : (checkedInput file limit hooks).tree.form? id = some (.call callee args))
    (h : StandsFor (checkedInput file limit hooks) codes callee name)
    (hsig : sigOf? (checkedInput file limit hooks).types (typeOf (checkedInput file limit hooks) callee) =
    some sig) :
    ∃ fn, codes.lookup fn = some name ∧
      sigOf? (checkedInput file limit hooks).types (typeOf (checkedInput file limit hooks) fn) = some sig := by
  obtain ⟨x, fn, hx, hfn, hcode⟩ := h
  obtain ⟨hvalue, hnot⟩ := isFunctionValue_of_denotes hfn
  have hassigned := assigned_eq (Ast.Tree.linked_parse file limit) hx hnot (Nat.le_refl callee)
  have hagree := hcallees id (Nat.lt_succ_of_le (Tree.le_size_of_form? hform)) callee (by simp [callee?, hform])
    (hassigned ▸ hvalue)
  obtain ⟨p, hp, hsig⟩ := Option.map_eq_some_iff.1 hsig
  rw [hp] at hagree
  have hprofile := profile?_of_denotes hfn (hassigned ▸ hagree.symm)
  exact ⟨fn, hcode, Option.map_eq_some_iff.2 ⟨p, hprofile, hsig⟩⟩

/-- A symbol that is called has been declared with no other signature than that of the call. -/
theorem sig_unique {codes : List (Nat × String)} (hinp : (checkedInput file limit hooks).Regular)
    (hexterns : ExternsAgree (checkedInput file limit hooks))
    (hcallees : CalleesAgree (checkedInput file limit hooks))
    (howns : ∀ fn name, codes.lookup fn = some name → Owns (checkedInput file limit hooks) fn name)
    (hfree : ∀ fn name, codes.lookup fn = some name → name ∉ reservedNames hooks) {name : String} {sig sig' : Sig}
    (h : IsCallable (checkedInput file limit hooks) codes name sig)
    (h' : IsDeclared (checkedInput file limit hooks) codes name sig') : sig' = sig := by
  have hentry : hooks.entry ∈ reservedNames hooks := List.mem_cons_self
  rcases h with h | ⟨id, callee, args, hform, hstands, hsig⟩
  · rcases h' with h' | rfl | ⟨fn, hfn, -⟩
    · exact isRuntime_unique hinp.nodup h' h
    · exact absurd h (not_isRuntime_entry hinp.nodup)
    · exact absurd (mem_of_isRuntime h) (hfree fn name hfn)
  · obtain ⟨fn, hfn, hsig⟩ := exists_of_standsFor hcallees hform hstands hsig
    rcases h' with h' | rfl | ⟨fn', hfn', hsig'⟩
    · exact absurd (mem_of_isRuntime h') (hfree fn name hfn)
    · exact absurd hentry (hfree fn _ hfn)
    · have hagree := (howns fn name hfn).agree (howns fn' name hfn') hinp hexterns
      rw [sigOf?, ← hagree] at hsig'
      exact Option.some.inj (hsig'.symm.trans hsig)

/-- If functions of one name have one signature, and what is called through an assignment has that of what is
assigned, then whatever accepted file is lowered, for either backend, every symbol that is called is declared,
with the signature of the call. -/
theorem lower_callsAgree (hacc : IsAccepted file limit) (hnodup : (reservedNames hooks).Nodup)
    (hapart : ∀ fn, (checkedInput file limit hooks).tree.isFunction fn = true →
      codeName (checkedInput file limit hooks).tree fn ∉ reservedNames hooks)
    (hexterns : ExternsAgree (checkedInput file limit hooks))
    (hcallees : CalleesAgree (checkedInput file limit hooks))
    {target : Target} (hlower : (lower (checkedInput file limit hooks) target).error = none) {o : Options}
    {path : String} {c : Code}
    (hc : (emptyCode o path).applyAll (lower (checkedInput file limit hooks) target).state.commands = .ok c)
    {call : String × Sig}
    (hcall : call ∈ directCalls (lower (checkedInput file limit hooks) target).state.commands) :
    c.sig? call.1 = some call.2 := by
  have hinp := regular_of_apart file limit hnodup hapart
  have hrun := runs_of_lower hlower
  have hordered := (completes_lowerProgram hinp (hacc.ready hooks) hrun).1.ordered
  have hnamed := ((settles_lowerProgram hinp target).1 () _ hrun).named
  obtain ⟨_, s₁, hnames, -⟩ := runs_bind.1 hrun
  obtain ⟨hgrounded, hruntime⟩ := grounded_of_lower hlower
  rw [sig?_of_applyAll hinp (hacc.ready hooks) hlower hc]
  generalize (lower (checkedInput file limit hooks) target).state = s at *
  have howns (fn : Nat) (name : String) (hcode : s.codes.lookup fn = some name) :
    Owns (checkedInput file limit hooks) fn name := by
    rcases hordered.enlisted fn name hcode with ⟨hfun, -⟩ | ⟨hreached, params, result, hform⟩
    · exact .inl ⟨hfun, hnamed.code fn name hcode⟩
    · exact .inr ⟨hreached, by simp [externName?, hform]⟩
  have hfree (fn : Nat) (name : String) (hcode : s.codes.lookup fn = some name) : name ∉ reservedNames hooks :=
    (howns fn name hcode).notMem hinp (notMem_of_checkNames hnames).2
  obtain ⟨args, hmem⟩ := exists_of_mem_directCalls hcall
  obtain ⟨i, hi⟩ := Array.mem_iff_getElem?.1 hmem
  have hcallable : IsCallable (checkedInput file limit hooks) s.codes call.1 call.2 := hgrounded.commands i _ hi
  have hsome : (s.symbols.lookup call.1).isSome := by
    rcases hcallable with h | ⟨-, -, -, -, ⟨-, fn, -, -, hcode⟩, -⟩
    · rw [← hordered.symbols]
      exact isSome_of_declareFunc (hruntime call.1 call.2 h)
    · exact hnamed.declared fn call.1 hcode
  obtain ⟨sig, hsig⟩ := Option.isSome_iff_exists.1 hsome
  rw [hsig, sig_unique hinp hexterns hcallees howns hfree hcallable (hgrounded.symbols call.1 sig hsig)]

set_option maxRecDepth 100000 in
/-- A block declares a function of a name and a signature that there is outside, and calls it by way of an
assignment. -/
theorem lower_callsAgree_of_assigned : ∃ file c, IsAccepted file 100 ∧
    (lower (checkedInput file 100 {}) (Target.ofTriple "")).error = none ∧
    (emptyCode { backend := .llvm } "").applyAll
    (lower (checkedInput file 100 {}) (Target.ofTriple "")).state.commands = .ok c ∧
    ∃ sig, ("p", sig) ∈ directCalls (lower (checkedInput file 100 {}) (Target.ofTriple "")).state.commands ∧
      c.sig? "p" = some sig := by
  let text := "declare function p(): void;\n{ declare function p(): void; let f = p; (f = p)(); }\np();\n"
  let file := Source.File.ofContent 0 "main.ts" text.toUTF8.toList 0
  -- decided at once, so that the file is checked and lowered only once
  obtain ⟨hacc, hlower, hexterns, hcallees, hobeys, hcalled⟩ : IsAccepted file 100 ∧
      (lower (checkedInput file 100 {}) (Target.ofTriple "")).error.isNone = true ∧
      ExternsAgree (checkedInput file 100 {}) ∧ CalleesAgree (checkedInput file 100 {}) ∧
      Ir.obeys [] {} (lower (checkedInput file 100 {}) (Target.ofTriple "")).state.commands.toList = true ∧
      "p" ∈ (directCalls (lower (checkedInput file 100 {}) (Target.ofTriple "")).state.commands).map (·.1) := by
        decide +kernel
  have hnames : Options.IsRegular {} := by decide
  have hregular := regular_checkedInput file 100 hnames
  have hnone := Option.isNone_iff_eq_none.1 hlower
  obtain ⟨call, hcall, hname⟩ := List.mem_map.1 hcalled
  obtain ⟨l, hl⟩ := applyAll_of_obeys hregular "" "" hobeys
  have hc : (emptyCode { backend := .llvm } "").applyAll
      (lower (checkedInput file 100 {}) (Target.ofTriple "")).state.commands = .ok (.llvm l) := by
    rw [emptyCode, Code.applyAll_llvm, hl]
    rfl
  have hagree := lower_callsAgree hacc hregular.nodup hregular.apart hexterns hcallees hnone hc hcall
  exact ⟨file, .llvm l, hacc, hnone, hc, call.2, hname ▸ hcall, hname ▸ hagree⟩

end TypedScript.Compile
