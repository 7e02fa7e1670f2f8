import TypedScript.Proofs.Lower.Housed
import TypedScript.Proofs.Lower.Scopes
import TypedScript.Proofs.Machine.Reaches
import TypedScript.Proofs.Scope.Path

/-!
# Following links

The code that leads to the scope object of an enclosing function goes from the environment through the links
between scope objects, two instructions for each of them: the address of the link and a load. Run where the
objects of the scopes are linked as the scopes lie around each other, it ends with the object of the scope that
was asked for.

* `AddsLines`: the lines that were added to the block at hand between two states of lowering.
* `pathLines`: the lines that follow the links of a path.
* `Lead`: lines lead from the object of one scope to that of another.
* `path_follows_links`: how paths are found, and where they lead.
-/

namespace TypedScript.Lower

open TypedScript.Ir TypedScript.Layout TypedScript.Machine TypedScript.Scope

variable {s s' s'' : State} {lines lines' : List Line}

/-! ### Code that was added -/

/-- From the state `s` to the state `s'` the lines were added to the block at hand, and scopes stayed as they
were. -/
structure AddsLines (s s' : State) (lines : List Line) : Prop where
  chain : s'.chain = s.chain
  built : ∀ m', Built s'.commands m' → ∃ m, Built s.commands m ∧
    ∀ i f, Focus m i f → f.registers.size = s.registers →
      ∃ f', Focus m' i f' ∧ f'.registers.size = s'.registers ∧ m'.block = m.block ∧ f'.code m.block =
        f.code m.block ++ lines

theorem AddsLines.refl (s : State) : AddsLines s s [] :=
  ⟨rfl, fun m' hm => ⟨m', hm, fun _ f hf hsize => ⟨f, hf, hsize, rfl, (List.append_nil _).symm⟩⟩⟩

theorem AddsLines.trans (h : AddsLines s s' lines) (h' : AddsLines s' s'' lines') : AddsLines s s''
    (lines ++ lines') := by
  refine ⟨h'.chain.trans h.chain, fun m'' hm'' => ?_⟩
  obtain ⟨m', hm', hlast⟩ := h'.built m'' hm''
  obtain ⟨m, hm, hfirst⟩ := h.built m' hm'
  refine ⟨m, hm, fun i f hf hsize => ?_⟩
  obtain ⟨f', hf', hsize', hblock, hcode⟩ := hfirst i f hf hsize
  obtain ⟨f'', hf'', hsize'', hblock', hcode'⟩ := hlast i f' hf' hsize'
  rw [hblock] at hcode'
  exact ⟨f'', hf'', hsize'', hblock'.trans hblock, by rw [hcode', hcode, List.append_assoc]⟩

/-- An instruction with a result is one line. -/
theorem adds_value {i : Instr} (hi : i.yieldsValue = true) :
    AddsLines s (s.advance (s.commands.push (.instr i)) (s.registers + 1)) [⟨some s.registers, i⟩] := by
  refine ⟨rfl, fun m' hm' => ?_⟩
  obtain ⟨m, hm, happly⟩ := built_push.1 hm'
  refine ⟨m, hm, fun j f hf hsize => ?_⟩
  obtain ⟨t, -, hturns, hblock, -, hlt⟩ := append_eq_ok happly hf
  refine ⟨_, hturns.toFocus, ?_, hblock, ?_⟩
  · rw [Function.size_registers_push, if_pos hi, hsize]
    rfl
  · rw [Function.code_push hlt, if_pos rfl, if_pos hi, hsize]

/-- Declaring a struct adds nothing to a function. -/
theorem runs_useStruct (d : Descriptor) :
    ∃ t, Runs (useStruct d) s (structOf d) t ∧ t.registers = s.registers ∧ t.env = s.env ∧ AddsLines s t [] := by
  by_cases hseen : s.structs.contains d.tag = true
  · refine ⟨s, ?_, rfl, rfl, .refl s⟩
    refine runs_bind.2 ⟨s, s, runs_get.2 ⟨rfl, rfl⟩, ?_⟩
    simp only [hseen, Bool.not_true, Bool.false_eq_true, if_false]
    exact runs_pure.2 ⟨rfl, rfl⟩
  · let t : State := { s with
      commands := s.commands.push (.declareStruct (structOf d)), structs := d.tag :: s.structs }
    refine ⟨t, ?_, rfl, rfl, ?_⟩
    · refine runs_bind.2 ⟨s, s, runs_get.2 ⟨rfl, rfl⟩, ?_⟩
      simp only [hseen, Bool.not_false, if_true]
      exact runs_bind.2 ⟨(), _, runs_modify.2 rfl, runs_bind.2 ⟨(), _, runs_modify.2 rfl, runs_pure.2 ⟨rfl, rfl⟩⟩⟩
    · refine ⟨rfl, fun m' hm' => ?_⟩
      obtain ⟨m, hm, happly⟩ := built_push.1 hm'
      cases happly
      exact ⟨m, hm, fun i f hf hsize => ⟨f, ⟨hf.current, hf.function⟩, hsize, rfl, (List.append_nil _).symm⟩⟩

/-! ### Lines -/

/-- The layout of the object of a scope. -/
def objectLayout (c : Chain) (m : Nat) : Descriptor := (c.get m).layout.getD default

/-- The field for the link in a layout. -/
def linkOf (d : Descriptor) : Field := (d.field? parentField).getD default

/-- The object of the scope has a field for the link. -/
def HasLink (c : Chain) (m : Nat) : Prop := ((objectLayout c m).field? parentField).isSome = true

/-- A scope that was given its object has one with the field. -/
theorem hasLink_of_makeScopeObject {inp : Input} {k container : Nat} {vars : List Scope.Binding}
    {n : Scope.Node} {u : Unit} (hn : s.chain.nodes[k]? = some n)
    (h : Runs (makeScopeObject inp k container vars) s u s') : HasLink s'.chain k := by
  obtain ⟨d, object, link, hlink, hnode⟩ := runs_makeScopeObject hn h
  rw [HasLink, objectLayout, get_eq hnode]
  exact Option.isSome_iff_exists.2 ⟨link, hlink⟩

/-- The lines that load the link of the object in the operand `v`. The first register they use is `r`. -/
def linkLines (d : Descriptor) (r : Nat) (v : Operand) : List Line :=
  [⟨some r, .fieldAddr (structOf d) v (linkOf d).slot⟩, ⟨some (r + 1), .load (irType (linkOf d).rep) (.reg r)⟩]

/-- The lines that lead along a path, from the object of its first scope in the operand `v`. -/
def pathLines (c : Chain) : List Nat → Nat → Operand → List Line
  | m :: p :: path, r, v => linkLines (objectLayout c m) r v ++ pathLines c (p :: path) (r + 2) (.reg (r + 1))
  | _, _, _ => []

theorem length_pathLines (c : Chain) (path : List Nat) (r : Nat) (v : Operand) :
    (pathLines c path r v).length = 2 * (path.length - 1) := by
  fun_induction pathLines c path r v with
  | case1 r v m p path ih =>
    rw [List.length_append, ih]
    simp only [linkLines, List.length_cons, List.length_nil]
    omega
  | case2 path r v hne =>
    match path with
    | [] | [_] => rfl
    | m :: p :: path => exact absurd rfl (hne m p path)

/-- What the object of the scope `m`, in the operand `v`, links to. -/
def followLink (v : Operand) (m : Nat) : LowerM Operand := do
  let d ← scopeLayout m
  loadField d v (← fieldOf d parentField)

/-- Following the link of a scope adds the two lines. -/
theorem runs_followLink {m : Nat} (h : HasLink s.chain m) (v : Operand) :
    ∃ t, Runs (followLink v m) s (.reg (s.registers + 1)) t ∧ t.registers = s.registers + 2 ∧
      AddsLines s t (linkLines (objectLayout s.chain m) s.registers v) := by
  generalize hd : objectLayout s.chain m = d
  rw [HasLink, hd] at h
  obtain ⟨link, hlink⟩ := Option.isSome_iff_exists.1 h
  have hfield : linkOf d = link := by rw [linkOf, hlink, Option.getD_some]
  obtain ⟨t, huse, hregs, -, hadds⟩ := runs_useStruct (s := s) d
  have hlayout : Runs (scopeLayout m) s d s := by
    refine runs_bind.2 ⟨s.chain.get m, s, ?_, runs_pure.2 ⟨hd.symm, rfl⟩⟩
    exact runs_bind.2 ⟨s, s, runs_get.2 ⟨rfl, rfl⟩, runs_pure.2 ⟨rfl, rfl⟩⟩
  have hof : Runs (fieldOf d parentField) s link s := by
    unfold fieldOf
    rw [Descriptor.field_eq_ok.2 hlink]
    exact runs_pure.2 ⟨rfl, rfl⟩
  let t₁ := t.advance (t.commands.push (.instr (.fieldAddr (structOf d) v link.slot))) (t.registers + 1)
  let t₂ := t₁.advance (t₁.commands.push (.instr (.load (irType link.rep) (.reg t.registers)))) (t₁.registers + 1)
  have haddr : AddsLines t t₁ _ := adds_value rfl
  have hload : AddsLines t₁ t₂ _ := adds_value rfl
  refine ⟨t₂, ?_, congrArg (· + 2) hregs, ?_⟩
  · rw [← hregs]
    refine runs_bind.2 ⟨d, s, hlayout, runs_bind.2 ⟨link, s, hof, ?_⟩⟩
    exact runs_bind.2 ⟨.reg t.registers, t₁, runs_bind.2 ⟨_, t, huse, rfl⟩, rfl⟩
  · rw [← hregs, linkLines, hfield]
    exact (hadds.trans haddr).trans hload

/-! ### Running the code -/

/-- The call goes on by some lines of its block, and memory stays as it is. -/
structure Advances (cfg : Config) (M : Memory) (rest : List Frame) (fr : Frame) (k : Nat) (fr' : Frame) : Prop where
  reaches : Reaches cfg M (fr :: rest) [] M (fr' :: rest)
  function : fr'.function = fr.function
  block : fr'.block = fr.block
  next : fr'.next = fr.next + k
  size : fr'.registers.size = fr.registers.size

section

variable {c : Chain} {cfg : Config} {M : Memory} {rest : List Frame} {fr fr' fr'' : Frame}

theorem Advances.refl (fr : Frame) : Advances cfg M rest fr 0 fr := ⟨.refl _ _, rfl, rfl, rfl, rfl⟩

theorem Advances.trans {k k' : Nat} (h : Advances cfg M rest fr k fr') (h' : Advances cfg M rest fr' k' fr'') :
    Advances cfg M rest fr (k + k') fr'' where
  reaches := h.reaches.trans h'.reaches
  function := h'.function.trans h.function
  block := h'.block.trans h.block
  next := by rw [h'.next, h.next, Nat.add_assoc]
  size := h'.size.trans h.size

/-- The lines come next in the block of the call. -/
def LinesAhead (fr : Frame) (lines : List Line) : Prop := lines <+: (fr.function.code fr.block).drop fr.next

theorem LinesAhead.line?_eq {k : Nat} (h : LinesAhead fr lines) (hk : k < lines.length) :
    (fr.function.code fr.block)[fr.next + k]? = lines[k]? := by
  obtain ⟨more, hmore⟩ := h
  rw [← List.getElem?_drop, ← hmore, List.getElem?_append_left hk]

theorem LinesAhead.left (h : LinesAhead fr (lines ++ lines')) : LinesAhead fr lines :=
  (List.prefix_append lines lines').trans h

theorem LinesAhead.advance (h : LinesAhead fr (lines ++ lines')) (hadv : Advances cfg M rest fr lines.length fr') :
    LinesAhead fr' lines' := by
  obtain ⟨more, hmore⟩ := h
  refine ⟨more, ?_⟩
  rw [hadv.function, hadv.block, hadv.next, ← List.drop_drop, ← hmore, List.append_assoc, List.drop_left]

/-- The object of a scope, where `place` says which object that is. -/
def objectOf (place : Nat → Nat) (m : Nat) : Value := .ptr (.object (place m))

/-- The object of the scope links to that of the next scope outward. -/
def Linked (c : Chain) (M : Memory) (place : Nat → Nat) (m : Nat) : Prop :=
  ∀ p, parentEnv? c m = some p → M.load (.ptr (.field (place m) (linkOf (objectLayout c m)).slot)) =
    .ok (objectOf place p)

/-- The two lines lead from an object to the one that it links to. -/
theorem advances_link {d : Descriptor} {i r : Nat} {v : Operand} {target : Value}
    (hahead : LinesAhead fr (linkLines d r v)) (hsize : r + 2 ≤ fr.registers.size)
    (hv : fr.value? v = some (.ptr (.object i))) (hload : M.load (.ptr (.field i (linkOf d).slot)) = .ok target) :
    ∃ fr', Advances cfg M rest fr 2 fr' ∧ fr'.value? (.reg (r + 1)) = some target := by
  let addr : Value := .ptr (.field i (linkOf d).slot)
  have hfirst : fr.line? = some ⟨some r, .fieldAddr (structOf d) v (linkOf d).slot⟩ := by
    rw [Frame.line?_eq]
    exact hahead.line?_eq (by decide : 0 < 2)
  have hsecond : (fr.set (some r) addr).line? = some ⟨some (r + 1), .load (irType (linkOf d).rep) (.reg r)⟩ := by
    rw [Frame.line?_eq]
    exact hahead.line?_eq (by decide : 1 < 2)
  have haddr : (fr.set (some r) addr).value? (.reg r) = some addr := by
    rw [Frame.value?_reg (by rw [Frame.size_set]; omega), Frame.reg_set_self _ (by omega)]
  refine ⟨(fr.set (some r) addr).set (some (r + 1)) target, ⟨?_, rfl, rfl, rfl, by simp⟩, ?_⟩
  · exact reaches_fieldAddr hfirst hv rfl (reaches_load hsecond haddr hload (.refl _ _))
  · rw [Frame.value?_reg (by rw [Frame.size_set, Frame.size_set]; omega),
      Frame.reg_set_self _ (by rw [Frame.size_set]; omega)]

end

/-- Executed where the objects of the scopes in `through` are linked, the lines lead from the object of the scope
`first` in the operand `v` to that of the scope `last` in the operand `w`. The first register they use is `r`. -/
def Lead (c : Chain) (through : List Nat) (first last r : Nat) (lines : List Line) (v w : Operand) : Prop :=
  ∀ (cfg : Config) (M : Memory) (place : Nat → Nat) (rest : List Frame) (fr : Frame),
    (∀ m ∈ through, Linked c M place m) → LinesAhead fr lines → r + lines.length ≤ fr.registers.size →
    fr.value? v = some (objectOf place first) →
    ∃ fr', Advances cfg M rest fr lines.length fr' ∧ fr'.value? w = some (objectOf place last)

/-- The links of a path are followed from its beginning to its end. The induction is on the path. -/
theorem runs_followLinks {path : List Nat} {first last : Nat} (hfirst : path.head? = some first)
    (hlast : path.getLast? = some last) (v : Operand)
    (hchain : path.IsChain fun m p => parentEnv? s.chain m = some p)
    (hlinks : ∀ m ∈ path.dropLast, HasLink s.chain m) :
    ∃ w t, Runs (path.dropLast.foldlM followLink v) s w t ∧
      AddsLines s t (pathLines s.chain path s.registers v) ∧
      Lead s.chain path.dropLast first last s.registers (pathLines s.chain path s.registers v) v w := by
  induction path generalizing s v first with
  | nil => cases hfirst
  | cons m path ih =>
    obtain rfl : m = first := Option.some.inj hfirst
    cases path with
    | nil =>
      obtain rfl : m = last := Option.some.inj hlast
      exact ⟨v, s, runs_pure.2 ⟨rfl, rfl⟩, .refl s, fun _ _ _ _ fr _ _ _ hv => ⟨fr, .refl fr, hv⟩⟩
    | cons p path =>
      obtain ⟨hlink, hchain⟩ := List.isChain_cons_cons.1 hchain
      rw [List.getLast?_cons_cons] at hlast
      rw [List.dropLast_cons_cons, List.forall_mem_cons] at hlinks
      obtain ⟨t, hrun, hregs, hadds⟩ := runs_followLink hlinks.1 v
      obtain ⟨w, u, hrest, hadds', hlead⟩ := ih (s := t) rfl hlast (.reg (s.registers + 1)) (hadds.chain ▸ hchain)
        (hadds.chain ▸ hlinks.2)
      rw [hadds.chain, hregs] at hadds' hlead
      rw [List.dropLast_cons_cons, pathLines]
      refine ⟨w, u, runs_bind.2 ⟨_, t, hrun, hrest⟩, hadds.trans hadds', ?_⟩
      intro cfg M place rest fr hlinked hahead hsize hv
      obtain ⟨hhere, hlinked⟩ := List.forall_mem_cons.1 hlinked
      rw [List.length_append] at hsize ⊢
      have htwo : (linkLines (objectLayout s.chain m) s.registers v).length = 2 := rfl
      obtain ⟨fr₁, hadv, hat⟩ : ∃ fr₁, Advances cfg M rest fr 2 fr₁ ∧
          fr₁.value? (.reg (s.registers + 1)) = some (objectOf place p) :=
        advances_link hahead.left (by omega) hv (hhere p hlink)
      have hregisters := hadv.size
      obtain ⟨fr₂, hadv', hlast'⟩ := hlead cfg M place rest fr₁ hlinked (hahead.advance hadv) (by omega) hat
      exact ⟨fr₂, hadv.trans hadv', hlast'⟩

/-- The object of a scope of an enclosing function is found along the path. -/
theorem runs_scopePointer {n target : Nat} {path : List Nat} (hf : s.chain.function target ≠ s.chain.function n)
    (hpath : s.chain.envPath? n target = some path) {w : Operand}
    (h : Runs (path.dropLast.foldlM followLink s.env) s w s') : Runs (scopePointer n (some target)) s w s' := by
  refine runs_bind.2 ⟨s, s, runs_get.2 ⟨rfl, rfl⟩, ?_⟩
  simp only [if_neg hf, hpath]
  exact runs_bind.2 ⟨s, s, runs_get.2 ⟨rfl, rfl⟩, h⟩

/-- A path is found to the scopes with an object that lie around a scope and belong to other functions, and to no
others. It begins with the environment, and each of its scopes links to the next one, so that one gets to its end
by following one link less than it has scopes. The code for the object of such a scope does that, with two lines
for every link: where the environment holds the object of the first scope, it arrives at the object of the last
one. If the object of a scope links to one of an enclosing function, that is the environment itself. -/
theorem path_follows_links {c : Chain} (hc : c.Made) {n : Nat} (hseg : c.Segmented n) (target : Nat) :
    (∀ path, c.envPath? n target = some path →
      c.Follows n target path ∧ (fun m => m.bind (parentEnv? c))^[path.length - 1] (c.env? n) = some target ∧
      ∀ s : State, s.chain = c → (∀ m ∈ path.dropLast, HasLink c m) →
        ∃ env w s', c.env? n = some env ∧ Runs (scopePointer n (some target)) s w s' ∧
          (pathLines c path s.registers s.env).length = 2 * (path.length - 1) ∧
          AddsLines s s' (pathLines c path s.registers s.env) ∧
          Lead c path.dropLast env target s.registers (pathLines c path s.registers s.env) s.env w) ∧
    (c.envPath? n target = none ↔
      ¬ (target ∈ c.outward n ∧ c.function target ≠ c.function n ∧ c.isEscaping target = true)) ∧
    (parentEnv? c n = some target → c.function target ≠ c.function n → c.envPath? n target = some [target]) := by
  have hordered := hc.ordered
  refine ⟨fun path hpath => ?_, hordered.envPath?_eq_none_iff hseg, hordered.envPath?_parentEnv?⟩
  have hfollows := hordered.follows hpath
  refine ⟨hfollows, hfollows.iterate_eq, ?_⟩
  rintro s rfl hlinks
  obtain ⟨env, hhead⟩ : ∃ env, path.head? = some env := by
    cases path with
    | nil => cases hfollows.last
    | cons m path => exact ⟨m, rfl⟩
  have hf := ((hordered.mem_beyondFunction_iff hseg).1 (Chain.envPath?_eq_some hpath).1.1).2
  obtain ⟨w, s', hrun, hadds, hlead⟩ := runs_followLinks hhead hfollows.last s.env hfollows.links hlinks
  exact ⟨env, w, s', hfollows.head ▸ hhead, runs_scopePointer hf hpath hrun, length_pathLines _ _ _ _, hadds, hlead⟩

/-- A module, a function in it, a block of that function, and a function in the block. The module and the block
have objects, which have nothing but the link. -/
def nestedChain : Chain :=
  let layout : Descriptor :=
    { tag := 2, name := "scope", kind := .scope, fields := [⟨parentField, .scope, 2, 16⟩], size := 24, align := 8 }
  let c := ((((({} : Chain).openRoot 1).1.openChild 0 20 20).1.openChild 1 25 20).1.openChild 2 30 30).1
  (c.modify 0 fun node => { node with escaping := true, layout := some layout }).modify 2 fun node =>
    { node with escaping := true, layout := some layout }

/-- From the function in the block one link is followed to the object of the module: that of the object of the
block. -/
theorem path_follows_links_of_block :
    let place (m : Nat) : Nat := if m = 0 then 1 else 2
    let memory : Memory :=
      { objects := #[⟨24, #[.int 2, .int 1, .null], false⟩, ⟨24, #[.int 2, .int 2, objectOf place 0], false⟩] }
    let s : State := { registry := { all := [] }, chain := nestedChain, env := .reg 0, registers := 1 }
    let entry : Block := ⟨"entry", (pathLines nestedChain [2, 0] 1 (.reg 0)).toArray⟩
    let frame : Frame :=
      { function := { name := "f", sig := ⟨Scalar.void, []⟩, blocks := #[entry] }
        registers := #[objectOf place 2, .invalid, .invalid] }
    nestedChain.Made ∧ nestedChain.Segmented 3 ∧ nestedChain.envPath? 3 0 = some [2, 0] ∧
      (∀ m ∈ [2], HasLink nestedChain m) ∧
      parentEnv? nestedChain 1 = some 0 ∧ nestedChain.envPath? 1 0 = some [0] ∧
      ∃ w s' fr', Runs (scopePointer 3 (some 0)) s w s' ∧
        Reaches ⟨{}, [], 0, false⟩ memory [frame] [] memory [fr'] ∧ fr'.value? w = some (objectOf place 0) := by
  intro place memory s entry frame
  have hmade : nestedChain.Made :=
    .change 2 (.change 0 (.child 30 30 (.child 25 20 (.child 20 20 (.root 1 .empty) (by decide)) (by decide))
      (by decide))
      fun _ => ⟨rfl, rfl⟩) fun _ => ⟨rfl, rfl⟩
  -- functions are numbered inward here
  have hseg (n : Nat) (hsorted : (nestedChain.outward n).Pairwise fun a b => nestedChain.function b ≤
    nestedChain.function a) :
      nestedChain.Segmented n := fun a m b h hab => by
    have hpairs := hsorted.sublist h
    simp only [List.pairwise_cons, List.mem_cons, List.not_mem_nil, or_false, forall_eq_or_imp, forall_eq] at hpairs
    omega
  have hinner := hseg 3 (by decide +kernel)
  have hpath : nestedChain.envPath? 3 0 = some [2, 0] := by decide +kernel
  have hlinks : ∀ m ∈ [2], HasLink nestedChain m := List.forall_mem_singleton.2 rfl
  have hparent : parentEnv? nestedChain 1 = some 0 := by decide +kernel
  have houter := (path_follows_links hmade (hseg 1 (by decide +kernel)) 0).2.2 hparent (by decide)
  obtain ⟨-, -, hrun⟩ := (path_follows_links hmade hinner 0).1 [2, 0] hpath
  obtain ⟨env, w, s', henv, hruns, -, -, hlead⟩ := hrun s rfl hlinks
  obtain rfl : 2 = env := Option.some.inj ((by decide +kernel : some 2 = nestedChain.env? 3).trans henv)
  have hlinked : ∀ m ∈ [2], Linked nestedChain memory place m := by
    intro m hm p hp
    obtain rfl := List.mem_singleton.1 hm
    obtain rfl : 0 = p := Option.some.inj ((by decide +kernel : some 0 = parentEnv? nestedChain 2).trans hp)
    rfl
  obtain ⟨fr', hadv, hat⟩ :=
    hlead ⟨{}, [], 0, false⟩ memory place [] frame hlinked (List.prefix_refl _) (by decide) rfl
  exact ⟨hmade, hinner, hpath, hlinks, hparent, houter, w, s', fr', hruns, hadv.reaches, hat⟩

end TypedScript.Lower
