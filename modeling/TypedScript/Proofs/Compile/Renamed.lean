import TypedScript.Proofs.Ast.Grammar
import TypedScript.Proofs.Compile.Backends
import TypedScript.Proofs.Compile.Limit

/-!
# What the text of a module depends on

A file that has no errors is compiled to a module with a text. What the file is called stands in one line of the
text, and nothing else depends on it: the grammar does not look at it, and no command does.

* `Llvm.Module.Nameless`: what does not look at the name of the source.
* `compile_emits_iff`: what a compilation for LLVM comes to.
* `Emits.renamed`: a file of another name has the same module but for the line.
-/

namespace TypedScript.Llvm

open TypedScript.Ir (Operand Scalar)

/-- The line that names the source. -/
def sourceLine (name : String) : String := "source_filename = " ++ quoted name ++ "\n"

theorem sourceLine_ne (name : String) : sourceLine name ≠ "" := by
  intro h
  have hfirst := (String.append_eq_empty_iff.1 (String.append_eq_empty_iff.1 h).1).1
  exact absurd hfirst (by decide)

/-- What is put before the first of several texts is put before all of them. -/
theorem intercalate_append_cons (sep a b : String) (parts : List String) :
    sep.intercalate ((a ++ b) :: parts) = a ++ sep.intercalate (b :: parts) := by
  cases parts with
  | nil => rw [String.intercalate_singleton, String.intercalate_singleton]
  | cons p parts =>
    rw [String.intercalate_cons_cons, String.intercalate_cons_cons, String.append_assoc, String.append_assoc,
      String.append_assoc]

namespace Module

/-- The module of another source. -/
def named (name : String) (m : Module) : Module := { m with sourceName := name }

/-- The name of the source is not read, and it is kept. -/
def Nameless {α : Type} (act : BuildM α) : Prop :=
  ∀ name m, act.run (named name m) = (act.run m).map fun r => (r.1, named name r.2)

namespace Nameless

variable {α β : Type}

theorem pure (a : α) : Nameless (pure a : BuildM α) := fun _ _ => rfl

theorem throw (e : Ir.Fault) : Nameless (throw e : BuildM α) := fun _ _ => rfl

theorem broken (message : String) : Nameless (Module.broken message : BuildM α) := fun _ _ => rfl

theorem bind {x : BuildM α} {f : α → BuildM β} (hx : Nameless x) (hf : ∀ a, Nameless (f a)) :
    Nameless (x >>= f) := by
  intro name m
  rw [StateT.run_bind, StateT.run_bind, hx name m]
  cases x.run m with
  | error e => rfl
  | ok r => exact hf r.1 name r.2

theorem read {f : Module → BuildM β} (hblind : ∀ name m, f (named name m) = f m) (hf : ∀ m, Nameless (f m)) :
    Nameless (get >>= f) := by
  intro name m
  change (f (named name m)).run (named name m) = _
  rw [hblind name m]
  exact hf m name m

theorem modify {f : Module → Module} (hf : ∀ name m, f (named name m) = named name (f m)) :
    Nameless (modify f : BuildM Unit) := by
  intro name m
  change Except.ok ((), f (named name m)) = Except.ok ((), named name (f m))
  rw [hf]

theorem mapM {f : α → BuildM β} (hf : ∀ a, Nameless (f a)) (xs : List α) : Nameless (xs.mapM f) := by
  induction xs with
  | nil => exact .pure _
  | cons x xs ih =>
    rw [List.mapM_cons]
    exact (hf x).bind fun _ => ih.bind fun _ => .pure _

theorem ite {c : Prop} [Decidable c] {x y : BuildM α} (hx : Nameless x) (hy : Nameless y) : Nameless
    (if c then x else y) := by
  split
  · exact hx
  · exact hy

end Nameless

theorem nameless_modifyCurrent (f : Function → Function) : Nameless (modifyCurrent f) := by
  refine .modify fun name m => ?_
  rcases m with ⟨_, _, _, _, _, _ | i, _⟩ <;> rfl

theorem nameless_appendTo (block : Nat) (type : Ty) (inst : Inst) : Nameless (appendTo block type inst) := by
  refine .read (fun _ _ => rfl) fun m => ?_
  split
  · exact .throw _
  · exact (nameless_modifyCurrent _).bind fun _ => .pure _

theorem nameless_append (type : Ty) (inst : Inst) : Nameless (append type inst) :=
  .read (fun _ _ => rfl) fun _ => nameless_appendTo _ _ _

theorem nameless_terminate (t : Term) : Nameless (terminate t) :=
  .read (fun _ _ => rfl) fun _ => .ite ((Nameless.throw _).bind fun _ => nameless_modifyCurrent _)
    (nameless_modifyCurrent _)

theorem nameless_bind (val : Val) (type : Ir.Ty) : Nameless (bind val type) := nameless_modifyCurrent _

theorem run_intern (s : String) (m : Module) : (intern s).run m = .ok (match m.texts.findIdx? (· = s) with
    | some i => (i, m)
    | none => (m.texts.size, { m with texts := m.texts.push s })) := rfl

theorem nameless_intern (s : String) : Nameless (intern s) := by
  intro name m
  rw [run_intern, run_intern]
  change Except.ok _ = Except.ok _
  dsimp only [named]
  cases m.texts.findIdx? (· = s) <;> rfl

theorem nameless_unwrap (o : Operand) : Nameless (unwrap o) := by
  refine .read (fun _ _ => rfl) fun m => ?_
  cases o with
  | reg | float | bool | null => exact .pure _
  | int t v =>
    dsimp only
    split
    · exact .pure _
    · exact .broken _
  | string v => exact (nameless_intern v).bind fun _ => .pure _
  | func name =>
    dsimp only
    split
    · exact .pure _
    · exact .throw _
  | absent => exact .broken _

theorem nameless_operandType (o : Operand) : Nameless (operandType o) := by
  unfold operandType
  cases o with
  | reg id => exact .read (fun _ _ => rfl) fun _ => .pure _
  | _ => exact .pure _

theorem nameless_castTo (v : Val) (type : Ty) : Nameless (castTo v type) := by
  refine .ite (.pure _) ?_
  split
  · exact .pure _
  · exact nameless_append _ _

theorem nameless_castPtr (v : Val) (type : Ty) : Nameless (castPtr v type) := .ite (nameless_castTo _ _) (.pure _)

theorem nameless_slotOf (s : Ir.Struct) (slot : Nat) (fields : List Ty) (p : Val) : Nameless
    (match fields[slot]? with
    | none => throw .crash
    | some type => do bind (← append (.ptr type) (.slot (.struct s.name) p slot)) Scalar.ptr) := by
  split
  · exact .throw _
  · exact (nameless_append _ _).bind fun _ => nameless_bind _ _

theorem nameless_slotAddr (s : Ir.Struct) (base : Operand) (slot : Nat) : Nameless (slotAddr s base slot) := by
  refine .read (fun _ _ => rfl) fun m => ?_
  split
  · exact .broken _
  · refine (nameless_unwrap base).bind fun _ => (nameless_castTo _ _).bind fun _ =>
      .read (fun _ _ => rfl) fun _ => ?_
    exact .ite ((Nameless.throw _).bind fun _ => nameless_slotOf s slot _ _) (nameless_slotOf s slot _ _)

theorem nameless_load (type : Ir.Ty) (addr : Operand) : Nameless (load type addr) :=
  .read (fun _ _ => rfl) fun _ => (nameless_unwrap _).bind fun _ => (nameless_castTo _ _).bind fun _ =>
    (nameless_append _ _).bind fun _ => nameless_bind _ _

theorem nameless_store (addr v : Operand) : Nameless (store addr v) :=
  (nameless_unwrap _).bind fun _ => (nameless_unwrap _).bind fun _ => (nameless_castTo _ _).bind fun _ =>
    (nameless_append _ _).bind fun _ => .pure _

theorem nameless_call (sig : Ir.Sig) (callee : Operand) (args : List Operand) : Nameless
    (call sig callee args) := by
  refine (Nameless.mapM (fun a => (nameless_unwrap _).bind fun x => ?_) _).bind fun args => ?_
  · split
    · exact .read (fun _ _ => rfl) fun _ => nameless_castPtr _ _
    · exact .pure _
  · split
    · refine .read (fun _ _ => rfl) fun m => ?_
      split
      · exact .throw _
      · exact (nameless_append _ _).bind fun _ => nameless_bind _ _
    · refine .read (fun _ _ => rfl) fun m => ?_
      exact (nameless_unwrap _).bind fun _ => (nameless_castTo _ _).bind fun _ =>
        (nameless_append _ _).bind fun _ =>
        nameless_bind _ _

theorem nameless_binary (op : Ir.Op) (x y : Operand) : Nameless (binary op x y) :=
  (nameless_unwrap _).bind fun _ => (nameless_unwrap _).bind fun _ => (nameless_operandType _).bind fun _ =>
    (nameless_append _ _).bind fun _ => nameless_bind _ _

theorem nameless_checkComparable (double : Bool) (t : Ty) : Nameless (checkComparable double t) := by
  unfold checkComparable
  split
  any_goals exact .pure _
  all_goals exact .broken _

theorem nameless_compare (pred : Ir.Pred) (x y : Operand) : Nameless (compare pred x y) := by
  refine (nameless_unwrap _).bind fun a => (nameless_unwrap _).bind fun b =>
    (nameless_operandType _).bind fun t => ?_
  have hrest (b : Val) : Nameless (do
      if (← get).current.isNone then throw .crash
      checkComparable (isDouble t) a.type
      bind (← append (.int 1) (.compare (compareName (isDouble t) pred) a b)) Scalar.i1) := by
    have hgo : Nameless (do
        checkComparable (isDouble t) a.type
        bind (← append (.int 1) (.compare (compareName (isDouble t) pred) a b)) Scalar.i1) :=
      (nameless_checkComparable _ _).bind fun _ => (nameless_append _ _).bind fun _ => nameless_bind _ _
    exact .read (fun _ _ => rfl) fun _ => .ite ((Nameless.throw _).bind fun _ => hgo) hgo
  exact .ite ((nameless_castTo _ _).bind hrest) ((Nameless.pure _).bind hrest)

theorem nameless_ret (v : Option Operand) : Nameless (ret v) := by
  unfold ret
  split
  · exact nameless_terminate _
  · refine (nameless_unwrap _).bind fun x => .read (fun _ _ => rfl) fun m => ?_
    split
    · exact .ite (.broken _) (.throw _)
    · exact (nameless_castPtr _ _).bind fun _ => nameless_terminate _

theorem nameless_instr (i : Ir.Instr) : Nameless (instr i) := by
  cases i with
  | fieldAddr s base slot => exact nameless_slotAddr s base slot
  | load type addr => exact nameless_load type addr
  | store addr v => exact nameless_store addr v
  | call sig callee args => exact nameless_call sig callee args
  | binary op x y => exact nameless_binary op x y
  | compare pred x y => exact nameless_compare pred x y
  | condBr cond t e => exact (nameless_unwrap cond).bind fun _ => nameless_terminate _
  | br b => exact nameless_terminate _
  | ret v => exact nameless_ret v

theorem index?_named (name f : String) (m : Module) : (named name m).index? f = m.index? f := rfl

theorem run_define (f : String) (m : Module) : (command (.define f)).run m = match m.index? f with
    | none => .error .crash
    | some i =>
      if (m.functions.getD i default).isDefined then .error (.broken s!"llvm: function {shownName f} defined twice")
      else .ok ((), { m with
        functions := m.functions.setIfInBounds i { m.functions.getD i default with
          isDefined := true, blocks := #[{ name := "entry" }],
          registers := (((m.functions.getD i default).params.zip (m.functions.getD i default).sig.params).map
            fun x =>
            (⟨.param x.1.1 x.1.2, x.2⟩ : Register)).toArray },
        current := some i, block := 0 }) := by
  unfold command
  rw [StateT.run_bind, StateT.run_get, pure_bind]
  dsimp only
  cases m.index? f with
  | none => rfl
  | some i =>
    dsimp only
    split <;> rfl

/-- No command looks at the name of the source. -/
theorem nameless_command (c : Ir.Command) : Nameless (command c) := by
  cases c with
  | declareStruct s =>
    refine .modify fun name m => ?_
    rw [apply_ite (named name)]
    rfl
  | declareFunc f sig =>
    refine .modify fun name m => ?_
    dsimp only
    rw [apply_ite (named name)]
    rfl
  | define f =>
    intro name m
    -- the module that is read is written back, so the two runs are compared as a whole
    rw [run_define, run_define, index?_named]
    cases m.index? f with
    | none => rfl
    | some i =>
      dsimp only
      rw [apply_ite (Except.map _)]
      rfl
  | newBlock b =>
    refine .read (fun _ _ => rfl) fun m => ?_
    split
    · exact .broken _
    · exact nameless_modifyCurrent _
  | setInsert block => exact .modify fun _ _ => rfl
  | constant c => exact (nameless_unwrap c).bind fun _ => .pure _
  | alloca type =>
    have hgo : Nameless (do
        let t := (← get).typeOf type
        bind (← appendTo 0 (.ptr t) (.alloca t)) Scalar.ptr) :=
      .read (fun _ _ => rfl) fun _ => (nameless_appendTo _ _ _).bind fun _ => nameless_bind _ _
    exact .read (fun _ _ => rfl) fun _ => .ite ((Nameless.broken _).bind fun _ => hgo) hgo
  | instr i => exact nameless_instr i

theorem apply_named (name : String) (m : Module) (c : Ir.Command) : (named name m).apply c = (m.apply c).map
    (named name) := by
  have hcommand := nameless_command c name m
  unfold apply
  rw [hcommand]
  cases (command c).run m <;> rfl

theorem applyAll_named (name : String) (m : Module) (cs : Array Ir.Command) :
    (named name m).applyAll cs = (m.applyAll cs).map (named name) := by
  rw [applyAll, applyAll, ← Array.foldlM_toList, ← Array.foldlM_toList]
  induction cs.toList generalizing m with
  | nil => rfl
  | cons c cs ih =>
    rw [List.foldlM_cons, List.foldlM_cons, apply_named]
    cases m.apply c with
    | error e => rfl
    | ok m' => exact ih m'

/-- But for the line that names the source, the text of a module does not depend on the source. -/
theorem text_named {m : Module} {ir : String} (h : m.text = .ok ir) : ∃ rest, ∀ name ≠ "",
    (named name m).text = .ok (sourceLine name ++ rest) := by
  cases hfunctions : m.functions.toList.mapM Function.text with
  | error e =>
    unfold text at h
    rw [hfunctions] at h
    cases h
  | ok functions =>
    let triple := if m.triple = "" then "" else "target triple = " ++ quoted m.triple ++ "\n"
    let structs := String.join (m.structs.map fun x => structText x.1 x.2)
    let texts := String.join (m.texts.toList.zipIdx.map fun x => textDefinition x.2 x.1)
    refine ⟨"\n".intercalate (triple :: ([structs, texts] ++ functions).filter (· ≠ "")), fun name hname => ?_⟩
    have htext : (named name m).text =
      .ok ("\n".intercalate (([(if name = "" then "" else sourceLine name) ++ triple,
        structs, texts] ++ functions).filter (· ≠ ""))) := by
      change (do
        let functions ← m.functions.toList.mapM Function.text
        return "\n".intercalate (([(if name = "" then "" else sourceLine name) ++ triple, structs, texts]
          ++ functions).filter (· ≠ ""))) = _
      rw [hfunctions]
      rfl
    have hhead : decide (sourceLine name ++ triple ≠ "") = true :=
      decide_eq_true fun h => sourceLine_ne name (String.append_eq_empty_iff.1 h).1
    rw [htext, if_neg hname, List.cons_append, List.filter_cons_of_pos (p := (· ≠ "")) hhead,
      intercalate_append_cons]

end Module

end TypedScript.Llvm

namespace TypedScript.Compile

open TypedScript.Ir TypedScript.Layout TypedScript.Lower

/-- The file has no errors and can be counted, and its module for LLVM has the text. -/
structure Emits (hooks : Lower.Options) (triple : String) (file : Source.File) (ir : String) : Prop where
  fits : Ast.Fits file 0
  accepted : IsAccepted file 0
  countable : (checkedInput file 0 hooks).types.types.size < Source.offsetLimit
  lowered : (lower (checkedInput file 0 hooks) (Target.ofTriple triple)).error = none
  written : ∃ m, ({ sourceName := file.path, triple } : Llvm.Module).applyAll
    (lower (checkedInput file 0 hooks) (Target.ofTriple triple)).state.commands = .ok m ∧ m.text = .ok ir

variable {o : Options} {file : Source.File} {u : Unit} {ir : String}

/-- A unit without errors that is lowered for LLVM has a module with a text. -/
theorem emitted_iff {inp : Input} (hbackend : o.backend = .llvm) (hstage : o.stage = .all)
    (hnone : u.failed = false) (hitems : u.bag.items = []) (hlimit : 0 < u.bag.limit) :
    (∃ u', (do
      let u ← lowerUnit o u inp
      if u.failed || o.stage = Stage.lower then return u
      emitUnit u) = .ok u' ∧ u'.failed = false ∧ u'.ir = ir) ↔
    (lower inp (Target.ofTriple o.triple)).error = none ∧
      ∃ m, ({ sourceName := u.path, triple := o.triple } : Llvm.Module).applyAll
        (lower inp (Target.ofTriple o.triple)).state.commands = .ok m ∧ m.text = .ok ir := by
  have hempty : emptyCode o u.path = .llvm { sourceName := u.path, triple := o.triple } := by
    rw [emptyCode, hbackend]
  unfold lowerUnit
  dsimp only
  rw [hempty, Code.applyAll_llvm]
  cases hm : ({ sourceName := u.path, triple := o.triple } : Llvm.Module).applyAll
      (lower inp (Target.ofTriple o.triple)).state.commands with
  | error e =>
    constructor
    · rintro ⟨u', h, -⟩
      cases h
    · rintro ⟨-, m, h, -⟩
      cases h
  | ok m =>
    cases herror : (lower inp (Target.ofTriple o.triple)).error with
    | none =>
      simp only [Except.map, bind, Except.bind, pure, Except.pure, Unit.finish, Unit.failed, hstage,
        reduceCtorEq, decide_false,
        Bool.or_false, emitUnit, true_and]
      rw [if_neg (Bool.eq_false_iff.1 (show u.bag.hasErrors = false from hnone))]
      cases htext : m.text with
      | error message =>
        constructor
        · rintro ⟨u', h, -⟩
          cases h
        · rintro ⟨m', h, h'⟩
          cases h
          cases htext.symm.trans h'
      | ok text =>
        constructor
        · rintro ⟨u', h, -, rfl⟩
          cases h
          exact ⟨m, rfl, htext⟩
        · rintro ⟨m', h, h'⟩
          cases h
          cases htext.symm.trans h'
          exact ⟨_, rfl, hnone, rfl⟩
    | some e =>
      have hsevere : (u.bag.addAll [e.diagnostic u.file.id]).hasErrors = true :=
        (hasErrors_addAll hitems hlimit (by simp [Lower.Error.diagnostic, Diagnostic.isError])).2 (by simp)
      refine ⟨?_, fun h => by cases h.1⟩
      rintro ⟨u', h, hfailed, -⟩
      cases e
      case missingParameter => cases h
      all_goals
        simp only [Except.map, bind, Except.bind, pure, Except.pure, Unit.finish, Unit.report, Unit.failed, hsevere,
          Bool.true_or, ↓reduceIte, Except.ok.injEq] at h
        rw [← h] at hfailed
        cases hsevere.symm.trans hfailed

/-- A compilation that has not failed in the end has not failed in a phase. -/
theorem unfailed_iff {rest : Except Fault Unit} :
    (∃ u', (if u.failed = true then pure u else rest) = .ok u' ∧ u'.failed = false ∧ u'.ir = ir) ↔
      u.failed = false ∧ ∃ u', rest = .ok u' ∧ u'.failed = false ∧ u'.ir = ir := by
  cases hfailed : u.failed with
  | false => simp
  | true =>
    simp only [↓reduceIte, Bool.true_eq_false, false_and, iff_false]
    rintro ⟨u', h, h', -⟩
    cases h
    exact nomatch hfailed.symm.trans h'

/-- What a compilation for LLVM comes to: there must be no error, and then the module has the text. -/
theorem compile_emits_iff (hbackend : o.backend = .llvm) (hstage : o.stage = .all) (hgo : o.isCancelled = false)
    (hlimit : o.diagnosticLimit ≠ 1) (files : Source.FileSet) :
    (∃ u, compile o files file = .ok u ∧ u.failed = false ∧ u.ir = ir) ↔ Emits o.hooks o.triple file ir := by
  have hpos := diagnosticLimit_pos o
  have hroom := room_ofLimit o
  have hcheck : decide (o.stage = .check) = false := by rw [hstage]; rfl
  -- the parser hides an error only at a limit of one
  have hparsed (u : Unit) (hitems : u.bag.items = []) (hroom : 0 < u.bag.limit) :
      (u.report (Ast.parse file o.diagnosticLimit).diagnostics).failed = false ↔
        (Ast.parse file 0).diagnostics = [] := by
    refine (failed_report_iff hitems hroom fun _ => isError_of_mem_parse_limit).trans ?_
    rw [diagnostics_parse_eq_nil_iff hpos, or_iff_left]
    exact fun hsilenced => hlimit hsilenced.1
  let table := (Binding.resolve (Ast.parse file 0).tree).table
  have hchecked : ∀ d ∈ (Check.check (Ast.parse file 0).tree table).diagnostics, d.isError = true := fun _ =>
    Check.isError_of_mem_check (Ast.Tree.linked_parse file 0) table
  simp only [compile, compileWith, pure_bind, monadLift_self, ite_self, bind_pure]
  rw [hgo, if_neg Bool.false_ne_true, hbackend]
  by_cases hfits : Ast.Fits file o.diagnosticLimit
  swap
  · refine iff_of_false ?_ fun h => hfits ?_
    · rintro ⟨u, h, -⟩
      obtain ⟨parsed, hparsed, -⟩ := bounded_bind_eq_ok h
      exact hfits (Ast.parseFile_eq_ok hparsed).1
    · have hparse := parse_eq_of_nil hpos h.accepted.parsed
      exact ⟨h.fits.content, hparse ▸ h.fits.nodes⟩
  rw [Ast.parseFile_of_fits hfits]
  simp only [bounded, Except.mapError, bind, Except.bind, hcheck, Bool.or_false]
  rw [unfailed_iff]
  by_cases hnil : (Ast.parse file 0).diagnostics = []
  swap
  · exact iff_of_false (fun h => hnil ((hparsed _ rfl hroom).1 h.1)) fun h => hnil h.accepted.parsed
  rw [parse_eq_of_nil hpos hnil, hnil]
  simp only [report_nil]
  rw [unfailed_iff]
  by_cases hnil' : (Binding.resolve (Ast.parse file 0).tree).diagnostics = []
  swap
  · exact iff_of_false (fun h => hnil' ((failed_report_iff rfl hroom fun _ => isError_of_mem_resolve).1 h.2.1))
      fun h => hnil' h.accepted.resolved
  rw [hnil']
  simp only [report_nil]
  by_cases hcount : (Check.check (Ast.parse file 0).tree table).types.types.size < Source.offsetLimit
  swap
  · refine iff_of_false ?_ fun h => hcount h.countable
    rintro ⟨-, -, u, h, -⟩
    rw [Check.checkTree_of_le (Nat.le_of_not_lt hcount)] at h
    cases h
  rw [Check.checkTree_of_lt hcount]
  dsimp only
  rw [unfailed_iff]
  by_cases hnil'' : (Check.check (Ast.parse file 0).tree
    (Binding.resolve (Ast.parse file 0).tree).table).diagnostics = []
  swap
  · exact iff_of_false (fun h => hnil'' ((failed_report_iff rfl hroom hchecked).1 h.2.2.1))
      fun h => hnil'' h.accepted.checked
  rw [hnil'']
  simp only [report_nil]
  constructor
  · rintro ⟨-, -, -, h⟩
    obtain ⟨hlowered, hwritten⟩ := (emitted_iff hbackend hstage rfl rfl hroom).1 h
    have hparse := parse_eq_of_nil hpos hnil
    exact ⟨⟨hfits.content, hparse ▸ hfits.nodes⟩, ⟨hnil, hnil', hnil''⟩, hcount, hlowered, hwritten⟩
  · exact fun h => ⟨rfl, rfl, rfl, (emitted_iff hbackend hstage rfl rfl hroom).2 ⟨h.lowered, h.written⟩⟩

/-- Files that differ in what they are called only have the same errors, and the same commands. -/
theorem Emits.renamed {hooks : Lower.Options} {triple : String} (h : Emits hooks triple file ir)
    (hpath : file.path ≠ "") :
    ∃ rest, ir = Llvm.sourceLine file.path ++ rest ∧ ∀ file' : Source.File, file'.id = file.id →
      file'.content = file.content →
      file'.path ≠ "" → Emits hooks triple file' (Llvm.sourceLine file'.path ++ rest) := by
  obtain ⟨m, hm, htext⟩ := h.written
  obtain ⟨rest, hrest⟩ := Llvm.Module.text_named htext
  have hnamed (path : String) : ({ sourceName := path, triple } : Llvm.Module).applyAll
      (lower (checkedInput file 0 hooks) (Target.ofTriple triple)).state.commands =
      .ok (Llvm.Module.named path m) := by
    have happly := Llvm.Module.applyAll_named path { sourceName := file.path, triple }
      (lower (checkedInput file 0 hooks) (Target.ofTriple triple)).state.commands
    rw [hm] at happly
    exact happly
  refine ⟨rest, ?_, fun file' hid hcontent hpath' => ?_⟩
  · have hsame : m = Llvm.Module.named file.path m := Except.ok.inj (hm.symm.trans (hnamed file.path))
    have hown := hrest file.path hpath
    rw [← hsame] at hown
    exact Except.ok.inj (htext.symm.trans hown)
  · have hparse := Ast.parse_congr hid hcontent 0
    have hinp : checkedInput file' 0 hooks = checkedInput file 0 hooks := by rw [checkedInput, checkedInput, hparse]
    refine ⟨⟨hcontent ▸ h.fits.content, hparse ▸ h.fits.nodes⟩, ?_, ?_, ?_, Llvm.Module.named file'.path m, ?_,
      hrest file'.path hpath'⟩
    · exact ⟨hparse ▸ h.accepted.parsed, hparse ▸ h.accepted.resolved, hparse ▸ h.accepted.checked⟩
    · rw [hinp]
      exact h.countable
    · rw [hinp]
      exact h.lowered
    · rw [hinp]
      exact hnamed file'.path

end TypedScript.Compile
