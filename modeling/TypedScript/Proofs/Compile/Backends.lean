import TypedScript.Proofs.Compile.Total
import TypedScript.Proofs.Llvm.Contract

/-!
# The backends agree

Lowering gives the same commands to both backends. A module for LLVM and a module for the machine that carry out
the same commands show the same, so there is nothing by which lowering could tell them apart. The machine carries
out whatever LLVM carries out. The other way round it takes commands that keep the contract.

* `Code.agrees_of_applyAll`: after the same commands both show the same.
* `lowerUnit_alike`: a unit that is lowered for LLVM is lowered for the machine, and nothing but the backend
  differs. It is lowered for LLVM if its commands keep the contract.
-/

namespace TypedScript.Compile

open TypedScript.Ir TypedScript.Layout TypedScript.Lower

/-! ### What is asked of code -/

namespace Code

def view : Code → View
  | machine m => m.view
  | llvm m => m.view

/-- The answers to what can be asked are the same. -/
structure Agrees (c c' : Code) : Prop where
  isEnded : c.isEnded = c'.isEnded
  blockName? : c.blockName? = c'.blockName?
  blockNames : c.blockNames = c'.blockNames
  registers : c.registers = c'.registers
  sig? : ∀ name, c.sig? name = c'.sig? name

variable (c : Code)

theorem isEnded_eq : c.isEnded = c.view.block?.elim true (·.2) := by
  cases c with
  | machine m =>
    rw [view, Machine.block?_view, isEnded, Machine.Module.isEnded]
    cases m.block? <;> rfl
  | llvm m =>
    rw [view, Llvm.Module.block?_view, isEnded, Llvm.Module.isEnded]
    cases m.block? <;> rfl

theorem blockName?_eq : c.blockName? = c.view.block?.map (·.1) := by
  cases c with
  | machine m =>
    rw [view, Machine.block?_view, Option.map_map]
    rfl
  | llvm m =>
    rw [view, Llvm.Module.block?_view, Option.map_map]
    rfl

theorem blockNames_eq : c.blockNames = (c.view.shape?.elim [] (·.blocks)).map (·.1) := by
  cases c with
  | machine m =>
    rw [view, Machine.shape?_view, blockNames]
    cases m.function? with
    | none => rfl
    | some f => simp [Machine.Function.shape]
  | llvm m =>
    rw [view, Llvm.Module.shape?_view, blockNames]
    cases m.function? with
    | none => rfl
    | some f => simp [Llvm.Function.shape]

theorem registers_eq : c.registers = c.view.shape?.elim [] (·.registers) := by
  cases c with
  | machine m =>
    rw [view, Machine.shape?_view, registers]
    cases m.function? <;> rfl
  | llvm m =>
    rw [view, Llvm.Module.shape?_view, registers]
    cases m.function? <;> rfl

theorem sig?_eq (name : String) : c.sig? name = (c.view.functions.find? (·.name = name)).map (·.sig) := by
  cases c with
  | machine m =>
    rw [view, Machine.find?_view, Option.map_map]
    rfl
  | llvm m =>
    rw [view, Llvm.Module.find?_view, Option.map_map]
    rfl

variable {c} {c' : Code}

theorem Agrees.rfl : c.Agrees c := ⟨Eq.refl _, Eq.refl _, Eq.refl _, Eq.refl _, fun _ => Eq.refl _⟩

theorem Agrees.symm (h : c.Agrees c') : c'.Agrees c where
  isEnded := h.isEnded.symm
  blockName? := h.blockName?.symm
  blockNames := h.blockNames.symm
  registers := h.registers.symm
  sig? name := (h.sig? name).symm

/-- The view tells all answers. -/
theorem agrees_of_view (h : c.view = c'.view) : c.Agrees c' where
  isEnded := by rw [isEnded_eq, isEnded_eq, h]
  blockName? := by rw [blockName?_eq, blockName?_eq, h]
  blockNames := by rw [blockNames_eq, blockNames_eq, h]
  registers := by rw [registers_eq, registers_eq, h]
  sig? name := by rw [sig?_eq, sig?_eq, h]

/-- The functions of a module for LLVM have the parameters of their signatures. -/
def Matched : Code → Prop
  | machine _ => True
  | llvm m => m.Matched

theorem view_apply {x : Command} (h : c.apply x = .ok c') (hc : c.Matched) : c'.view = c.view.apply x ∧
    c'.Matched := by
  cases c with
  | machine m =>
    simp only [apply] at h
    cases hm : m.apply x with
    | error e =>
      rw [hm] at h
      cases h
    | ok m' =>
      rw [hm] at h
      obtain rfl := Except.ok.inj h
      exact ⟨Machine.view_apply hm, trivial⟩
  | llvm m =>
    simp only [apply] at h
    cases hm : m.apply x with
    | error e =>
      rw [hm] at h
      cases h
    | ok m' =>
      rw [hm] at h
      obtain rfl := Except.ok.inj h
      exact Llvm.Module.view_apply hm hc

/-- Commands that are carried out change the view as they change any. The induction is on the commands. -/
theorem view_applyAll {xs : Array Command} (h : c.applyAll xs = .ok c') (hc : c.Matched) :
    c'.view = xs.toList.foldl View.apply c.view := by
  unfold applyAll at h
  rw [← Array.foldlM_toList] at h
  generalize xs.toList = xs at h
  induction xs generalizing c with
  | nil =>
    obtain rfl := Except.ok.inj h
    rfl
  | cons x xs ih =>
    rw [List.foldlM_cons] at h
    cases hx : c.apply x with
    | error e =>
      rw [hx] at h
      exact nomatch h
    | ok c₁ =>
      rw [hx] at h
      obtain ⟨hview, hmatched⟩ := view_apply hx hc
      rw [List.foldl_cons, ← hview]
      exact ih hmatched h

/-- After the same commands, both backends show the same. -/
theorem agrees_of_applyAll {xs : Array Command} {path triple : String} {c c' : Code}
    (h : (machine {}).applyAll xs = .ok c) (h' : (llvm { sourceName := path, triple }).applyAll xs = .ok c') :
    c.Agrees c' := by
  have hmatched : (llvm { sourceName := path, triple }).Matched := fun f hf => (Array.not_mem_empty f hf).elim
  refine agrees_of_view ?_
  rw [view_applyAll h trivial, view_applyAll h' hmatched]
  rfl

/-- Commands are carried out in code for LLVM as in the module it holds. -/
theorem applyAll_llvm (m : Llvm.Module) (xs : Array Command) : (llvm m).applyAll xs = (m.applyAll xs).map llvm := by
  unfold applyAll Llvm.Module.applyAll
  simp only [← Array.foldlM_toList]
  generalize xs.toList = xs
  induction xs generalizing m with
  | nil => rfl
  | cons x xs ih =>
    rw [List.foldlM_cons, List.foldlM_cons, apply]
    cases m.apply x with
    | error e => rfl
    | ok m₁ => exact ih m₁

end Code

/-! ### Both ways -/

/-- Each of the commands that were carried out was. -/
theorem exists_apply {m m' : Llvm.Module} {xs : Array Command} (h : m.applyAll xs = .ok m')
    {x : Command} (hx : x ∈ xs) :
    ∃ m₁ m₂, Llvm.Module.apply m₁ x = .ok m₂ := by
  unfold Llvm.Module.applyAll at h
  rw [← Array.foldlM_toList] at h
  rw [← Array.mem_toList_iff] at hx
  generalize xs.toList = xs at h hx
  induction xs generalizing m with
  | nil => exact nomatch hx
  | cons y ys ih =>
    rw [List.foldlM_cons] at h
    cases hy : m.apply y with
    | error e =>
      rw [hy] at h
      exact nomatch h
    | ok m₁ =>
      rw [hy] at h
      rcases List.mem_cons.1 hx with rfl | hx
      · exact ⟨m, m₁, hy⟩
      · exact ih h hx

variable {inp : Input} {target : Target}

/-- What LLVM carries out the machine carries out. -/
theorem built_of_llvm (hinp : inp.Regular) {l l' : Llvm.Module}
    (h : l.applyAll (lower inp target).state.commands = .ok l') :
    ∃ m, Machine.Built (lower inp target).state.commands m := by
  refine (lower_applies hinp target).2.resolve_right fun hcrashes => ?_
  obtain ⟨i, hi, hasked⟩ := hcrashes.asks
  obtain ⟨m₁, m₂, happly⟩ := exists_apply h hi
  exact Llvm.Module.absent_refused hasked happly

/-- A module for LLVM that is empty. -/
theorem solid_empty (path triple : String) : ({ sourceName := path, triple } : Llvm.Module).Solid [] :=
  ⟨fun _ => rfl, fun f hf => (Array.not_mem_empty f hf).elim, fun f hf => (Array.not_mem_empty f hf).elim⟩

/-- LLVM carries out what keeps the contract. -/
theorem applyAll_of_obeys (hinp : inp.Regular) (path triple : String)
    (h : Ir.obeys [] {} (lower inp target).state.commands.toList = true) :
    ∃ l, ({ sourceName := path, triple } : Llvm.Module).applyAll (lower inp target).state.commands = .ok l := by
  obtain ⟨m, hm⟩ := (lower_applies hinp target).2.resolve_right fun hcrashes => by
    obtain ⟨i, hi, hasked⟩ := hcrashes.asks
    exact Ir.absent_notMem_of_obeys h (Array.mem_toList_iff.2 hi) (Machine.mem_operands_of_asked? hasked)
  unfold Machine.Built Machine.Module.applyAll at hm
  rw [← Array.foldlM_toList] at hm
  unfold Llvm.Module.applyAll
  rw [← Array.foldlM_toList]
  exact Llvm.Module.foldlM_ok (solid_empty path triple) (fun f hf => (Array.not_mem_empty f hf).elim) rfl hm h

/-! ### Units -/

/-- Nothing that comes out of lowering tells two units apart. -/
structure Unit.Alike (u u' : Unit) : Prop where
  bag : u.bag = u'.bag
  lowered : u.lowered = u'.lowered
  phases : u.phases.map (fun p => (p.name, p.note, p.failed, p.functions)) =
    u'.phases.map fun p => (p.name, p.note, p.failed, p.functions)
  code : Option.Rel Code.Agrees u.code u'.code

theorem Unit.Alike.rfl {u : Unit} : u.Alike u where
  bag := Eq.refl _
  lowered := Eq.refl _
  phases := Eq.refl _
  code := by
    cases u.code with
    | none => exact .none
    | some c => exact .some Code.Agrees.rfl

variable {o o' : Options} {u u₁ : Unit}

theorem applyAll_of_lowerUnit (h : lowerUnit o u inp = .ok u₁) :
    ∃ c, (emptyCode o u.path).applyAll (lower inp (Target.ofTriple o.triple)).state.commands = .ok c := by
  unfold lowerUnit at h
  dsimp only at h
  cases hc : (emptyCode o u.path).applyAll (lower inp (Target.ofTriple o.triple)).state.commands with
  | error e =>
    rw [hc] at h
    exact nomatch h
  | ok c => exact ⟨c, rfl⟩

/-- Units that are lowered to code that shows the same are alike. -/
theorem lowerUnit_alike_of_agrees (hinp : inp.Regular) (htriple : o'.triple = o.triple) {c c' : Code}
    (hagrees : c.Agrees c')
    (hc : (emptyCode o u.path).applyAll (lower inp (Target.ofTriple o.triple)).state.commands = .ok c)
    (hc' : (emptyCode o' u.path).applyAll (lower inp (Target.ofTriple o.triple)).state.commands = .ok c') :
    ∃ u₁ u₂, lowerUnit o u inp = .ok u₁ ∧ lowerUnit o' u inp = .ok u₂ ∧ u₁.Alike u₂ := by
  have hmissing := (lower_applies hinp (Target.ofTriple o.triple)).1
  unfold lowerUnit
  dsimp only
  rw [htriple, hc, hc']
  cases he : (lower inp (Target.ofTriple o.triple)).error with
  | none => exact ⟨_, _, rfl, rfl, rfl, rfl, by simp [Unit.finish, Unit.failed], .some hagrees⟩
  | some e =>
    cases e with
    | missingParameter => exact absurd he hmissing
    | _ => exact ⟨_, _, rfl, rfl, .rfl⟩

/-- A unit that is lowered for LLVM is lowered for the machine, and the units are alike. A unit is lowered for
LLVM if its commands keep the contract. -/
theorem lowerUnit_alike (file : Source.File) (limit : Nat) {hooks : Lower.Options} (hnames : hooks.IsRegular)
    (o : Options) (u : Unit) :
    (∀ u₁, lowerUnit { o with backend := .llvm } u (checkedInput file limit hooks) = .ok u₁ →
      ∃ u₂, lowerUnit { o with backend := .machine } u (checkedInput file limit hooks) = .ok u₂ ∧ u₁.Alike u₂) ∧
    (Ir.obeys [] {} (lower (checkedInput file limit hooks) (Target.ofTriple o.triple)).state.commands.toList =
    true →
      ∃ u₁, lowerUnit { o with backend := .llvm } u (checkedInput file limit hooks) = .ok u₁) := by
  have hinp := regular_checkedInput file limit hnames
  -- both ways the module for LLVM comes first, and the machine follows
  have hboth {l : Llvm.Module} (hl : ({ sourceName := u.path, triple := o.triple } : Llvm.Module).applyAll
      (lower (checkedInput file limit hooks) (Target.ofTriple o.triple)).state.commands = .ok l) :
      ∃ u₁ u₂, lowerUnit { o with backend := .llvm } u (checkedInput file limit hooks) = .ok u₁ ∧
        lowerUnit { o with backend := .machine } u (checkedInput file limit hooks) = .ok u₂ ∧ u₁.Alike u₂ := by
    obtain ⟨m, hm⟩ := built_of_llvm hinp hl
    have hc := Code.applyAll_llvm { sourceName := u.path, triple := o.triple }
      (lower (checkedInput file limit hooks) (Target.ofTriple o.triple)).state.commands
    have hc' := applyAll_machine {}
      (lower (checkedInput file limit hooks) (Target.ofTriple o.triple)).state.commands
    rw [hl] at hc
    rw [hm] at hc'
    exact lowerUnit_alike_of_agrees hinp rfl (Code.agrees_of_applyAll hc' hc).symm hc hc'
  constructor
  · intro u₁ h
    obtain ⟨c, hc⟩ := applyAll_of_lowerUnit h
    rw [emptyCode, Code.applyAll_llvm] at hc
    cases hl : ({ sourceName := u.path, triple := o.triple } : Llvm.Module).applyAll
        (lower (checkedInput file limit hooks) (Target.ofTriple o.triple)).state.commands with
    | error e =>
      rw [hl] at hc
      exact nomatch hc
    | ok l =>
      obtain ⟨v₁, v₂, hv₁, hv₂, halike⟩ := hboth hl
      obtain rfl := Except.ok.inj (h.symm.trans hv₁)
      exact ⟨v₂, hv₂, halike⟩
  · intro h
    obtain ⟨l, hl⟩ := applyAll_of_obeys hinp u.path o.triple h
    obtain ⟨u₁, -, hu₁, -⟩ := hboth hl
    exact ⟨u₁, hu₁⟩

set_option maxRecDepth 100000 in
/-- A file in which a function compares what it is called with, and is handed an object. -/
theorem lowerUnit_alike_of_comparing : ∃ file, IsAccepted file 100 ∧
    (lower (checkedInput file 100 {}) (Target.ofTriple "")).error = none ∧
    ∀ u, ∃ u₁ u₂, lowerUnit { backend := .llvm } u (checkedInput file 100 {}) = .ok u₁ ∧
      lowerUnit { backend := .machine } u (checkedInput file 100 {}) = .ok u₂ ∧ u₁.Alike u₂ := by
  let text := "type P = { x: number };\n" ++
    "function pick(p: P, n: number) { if (p.x < n) { return p; } return { x: n }; }\npick({ x: 1 }, 2);\n"
  let file := Source.File.ofContent 0 "main.ts" text.toUTF8.toList 0
  -- decided at once, so that the file is checked and lowered only once
  obtain ⟨hacc, hlower, hobeys⟩ : IsAccepted file 100 ∧
      (lower (checkedInput file 100 {}) (Target.ofTriple "")).error.isNone = true ∧
      Ir.obeys [] {} (lower (checkedInput file 100 {}) (Target.ofTriple "")).state.commands.toList =
        true := by decide +kernel
  have hnames : Options.IsRegular {} := by decide
  refine ⟨file, hacc, Option.isNone_iff_eq_none.1 hlower, fun u => ?_⟩
  obtain ⟨hmachine, hllvm⟩ := lowerUnit_alike file 100 hnames {} u
  obtain ⟨u₁, hu₁⟩ := hllvm hobeys
  obtain ⟨u₂, hu₂, halike⟩ := hmachine u₁ hu₁
  exact ⟨u₁, u₂, hu₁, hu₂, halike⟩

end TypedScript.Compile
