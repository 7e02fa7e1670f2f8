import TypedScript.Proofs.Machine.Build
import TypedScript.Proofs.Runtime.Tame

/-!
# Modules of tame functions under construction

What holds of a module while functions are put into it, and why every command that lowering gives keeps it: the
function that is being defined is tame with the marks given so far, and so is every function that was defined
before.

* `Declared`: no function is being defined, and all that were have a property.
* `Drawing`: one function is being defined, and all others that were have the property.
* `Sketch`: the property is to be tame, and the function that is being defined is tame so far.
-/

namespace TypedScript.Lower

open TypedScript.Ir TypedScript.Layout TypedScript.Machine

variable {P : Function → Prop} {o : Options} {κ κ' : Marks} {symbols : List (String × Sig)}
    {m m' : Module} {i : Nat}
  {f f' : Function}

/-! ### Declared functions -/

/-- A function of the name is defined. -/
def Defines (m : Module) (name : String) : Prop := ∃ g ∈ m.functions, g.name = name ∧ g.isDefined = true

/-- The functions are those of `symbols`, each once. -/
structure Listed (symbols : List (String × Sig)) (m : Module) : Prop where
  blank : ∀ g ∈ m.functions, g.isDefined = false → g.slots = []
  sigs : ∀ name, m.sigs.lookup name = symbols.lookup name
  nodup : (m.sigs.map (·.1)).Nodup

/-- All functions with a body have the property. -/
structure Declared (P : Function → Prop) (symbols : List (String × Sig)) (m : Module) : Prop
    extends Listed symbols m where
  known : ∀ g ∈ m.functions, g.isDefined = true → P g

/-- The function `f` is being defined, and all others with a body have the property. -/
structure Drawing (P : Function → Prop) (symbols : List (String × Sig)) (m : Module) (i : Nat) (f : Function) : Prop
    extends Focus m i f, Listed symbols m where
  isDefined : f.isDefined = true
  others : ∀ j g, j ≠ i → m.functions[j]? = some g → g.isDefined = true → P g

theorem Listed.turn (h : Listed symbols m) (hf : m.functions[i]? = some f) (ht : Turns m m' i f')
    (hname : f'.name = f.name) (hsig : f'.sig = f.sig) (hdef : f'.isDefined = true) : Listed symbols m' := by
  have hsigs := ht.sigs_eq hf hname hsig
  refine ⟨fun g hg hd => ?_, fun name => hsigs ▸ h.sigs name, hsigs ▸ h.nodup⟩
  rcases mem_of_turns ht hg with rfl | hg
  · rw [hdef] at hd
    cases hd
  · exact h.blank g hg hd

/-- What is defined stays defined. -/
theorem Defines.turn {name : String} (h : Defines m name) (hf : m.functions[i]? = some f) (ht : Turns m m' i f')
    (hname : f'.name = f.name) (hdef : f'.isDefined = true) : Defines m' name := by
  obtain ⟨g, hg, hgname, hgdef⟩ := h
  obtain ⟨j, hj⟩ := Array.mem_iff_getElem?.1 hg
  by_cases hji : j = i
  · subst hji
    rw [hf] at hj
    cases hj
    exact ⟨f', Array.mem_of_getElem? ht.function, hname.trans hgname, hdef⟩
  · rw [← ht.others j hji] at hj
    exact ⟨g, Array.mem_of_getElem? hj, hgname, hgdef⟩

/-- The function that is being defined has changed. -/
theorem Drawing.turn (h : Drawing P symbols m i f) (ht : Turns m m' i f') (hname : f'.name = f.name)
    (hsig : f'.sig = f.sig) (hdef : f'.isDefined = f.isDefined) : Drawing P symbols m' i f' where
  toFocus := ht.toFocus
  toListed := h.toListed.turn h.function ht hname hsig (hdef.trans h.isDefined)
  isDefined := hdef.trans h.isDefined
  others j g hj hg := h.others j g hj (ht.others j hj ▸ hg)

/-- The definition of a function is finished. -/
theorem Drawing.finish (h : Drawing P symbols m i f) (hf : P f) : Declared P symbols m := by
  refine ⟨h.toListed, fun g hg hd => ?_⟩
  obtain ⟨j, hj⟩ := Array.mem_iff_getElem?.1 hg
  by_cases hji : j = i
  · subst hji
    rw [h.function] at hj
    cases hj
    exact hf
  · exact h.others j g hji hj hd

/-- Commands that leave the functions alone. -/
theorem Drawing.congr (h : Drawing P symbols m i f) (hc : m'.current = m.current)
    (hf : m'.functions = m.functions) :
    Drawing P symbols m' i f := by
  have hsigs : m'.sigs = m.sigs := by rw [Module.sigs, Module.sigs, hf]
  exact ⟨⟨hc ▸ h.current, hf ▸ h.function⟩, ⟨hf ▸ h.blank, fun name => hsigs ▸ h.sigs name, hsigs ▸ h.nodup⟩,
    h.isDefined,
    hf ▸ h.others⟩

theorem Declared.congr (h : Declared P symbols m) (hf : m'.functions = m.functions) : Declared P symbols m' := by
  have hsigs : m'.sigs = m.sigs := by rw [Module.sigs, Module.sigs, hf]
  exact ⟨⟨hf ▸ h.blank, fun name => hsigs ▸ h.sigs name, hsigs ▸ h.nodup⟩, hf ▸ h.known⟩

/-- The number of the parameters of a function that was declared. -/
def paramCount (symbols : List (String × Sig)) (name : String) : Nat :=
  ((symbols.lookup name).map (·.params.length)).getD 0

/-- The definition of a function begins. -/
theorem Declared.define {name : String} (h : Declared P symbols m) (hm : m.apply (.define name) = .ok m') :
    ∃ (i : Nat) (g : Function), Drawing P symbols m' i g.begun ∧ g.name = name ∧ g.slots = [] ∧
      g.sig.params.length = paramCount symbols name ∧ m'.block = 0 ∧ Defines m' name ∧
      ∀ n, Defines m n → Defines m' n := by
  obtain ⟨i, g, hg, rfl, hfind, hdef, hblock, ht⟩ := apply_define_eq_ok hm
  have hmem := Array.mem_of_getElem? hg
  refine ⟨i, g, ⟨ht.toFocus, h.toListed.turn hg ht rfl rfl rfl, rfl, fun j g' hj hg' hd => ?_⟩, rfl,
    h.blank g hmem hdef, ?_,
    hblock, ⟨g.begun, Array.mem_of_getElem? ht.function, rfl, rfl⟩, fun n hn => hn.turn hg ht rfl rfl⟩
  · exact h.known g' (Array.mem_of_getElem? (ht.others j hj ▸ hg')) hd
  · simp [paramCount, ← h.sigs, ← find?_map_sig, hfind]

/-- The symbols after a declaration. -/
def symbolsAfter (symbols : List (String × Sig)) (name : String) (sig : Sig) : List (String × Sig) :=
  if (symbols.lookup name).isSome then symbols else (name, sig) :: symbols

/-- A declaration adds a function without a body, if it adds one at all. -/
theorem Listed.declareFunc {name : String} {sig : Sig} (h : Listed symbols m)
    (hm : m.apply (.declareFunc name sig) = .ok m') :
    Listed (symbolsAfter symbols name sig) m' ∧ m'.current = m.current ∧
      (m'.functions = m.functions ∨ m'.functions = m.functions.push { name, sig }) := by
  have hlookup : (m.find? name).isSome = (symbols.lookup name).isSome := by
    rw [← h.sigs, ← find?_map_sig, Option.isSome_map]
  simp only [Module.apply, hlookup] at hm
  unfold symbolsAfter
  split at hm
  · rename_i hs
    cases hm
    rw [if_pos hs]
    exact ⟨h, rfl, .inl rfl⟩
  · rename_i hs
    cases hm
    rw [if_neg hs]
    have hnone : symbols.lookup name = none := Option.not_isSome_iff_eq_none.1 hs
    have hsigs : ({ m with functions := m.functions.push { name, sig } } : Module).sigs = m.sigs ++
      [(name, sig)] := by
      simp [Module.sigs]
    refine ⟨⟨fun g hg hd => ?_, fun name' => ?_, ?_⟩, rfl, .inr rfl⟩
    · rcases Array.mem_push.1 hg with hg | rfl
      · exact h.blank g hg hd
      · rfl
    · rw [hsigs, List.lookup_append, h.sigs, List.lookup_cons, List.lookup_cons]
      by_cases hn : name' = name
      · subst hn
        simp [hnone]
      · have hne : (name' == name) = false := by simpa using hn
        simp [hne]
    · rw [hsigs, List.map_append, List.nodup_append]
      refine ⟨h.nodup, by simp, fun a ha b hb => ?_⟩
      have hnot : name ∉ m.sigs.map (·.1) := by
        intro hmem
        obtain ⟨p, hp, rfl⟩ := List.mem_map.1 hmem
        have := List.lookup_eq_none_iff.1 ((h.sigs p.1).trans hnone) p hp
        simp at this
      obtain rfl : b = name := by simpa using hb
      exact fun hab => hnot (hab ▸ ha)

theorem Declared.declareFunc {name : String} {sig : Sig} (h : Declared P symbols m)
    (hm : m.apply (.declareFunc name sig) = .ok m') : Declared P (symbolsAfter symbols name sig) m' := by
  obtain ⟨hl, -, hf⟩ := h.toListed.declareFunc hm
  refine ⟨hl, fun g hg hd => ?_⟩
  rcases hf with hf | hf
  · exact h.known g (hf ▸ hg) hd
  · rcases Array.mem_push.1 (hf ▸ hg) with hg | rfl
    · exact h.known g hg hd
    · cases hd

theorem Drawing.declareFunc {name : String} {sig : Sig} (h : Drawing P symbols m i f)
    (hm : m.apply (.declareFunc name sig) = .ok m') :
    Drawing P (symbolsAfter symbols name sig) m' i f ∧ ∀ n, Defines m n → Defines m' n := by
  obtain ⟨hl, hc, hf⟩ := h.toListed.declareFunc hm
  rcases hf with hf | hf
  · refine ⟨⟨⟨hc ▸ h.current, hf ▸ h.function⟩, hl, h.isDefined, hf ▸ h.others⟩, fun n hn => ?_⟩
    unfold Defines
    rw [hf]
    exact hn
  · have hlt := (Array.getElem?_eq_some_iff.1 h.function).1
    refine ⟨⟨⟨hc ▸ h.current, ?_⟩, hl, h.isDefined, fun j g hj hg hd => ?_⟩, fun n hn => ?_⟩
    · rw [hf, Array.getElem?_push_lt hlt, ← Array.getElem?_eq_getElem hlt]
      exact h.function
    · rw [hf, Array.getElem?_push] at hg
      split at hg
      · cases hg
        cases hd
      · exact h.others j g hj hg hd
    · obtain ⟨g, hg, hname, hdef⟩ := hn
      exact ⟨g, by rw [hf]; exact Array.mem_push.2 (.inl hg), hname, hdef⟩

/-! ### Tame functions -/

/-- The name is free for a function that the program defines. -/
def IsUserName (o : Options) (name : String) : Prop := name ∉ o.allocate :: o.release :: helperNames

/-- A tame function with a free name. -/
def IsUserFunction (o : Options) (g : Function) : Prop := IsUserName o g.name ∧ ∃ κ, TameFunction o κ g

/-- The function `f` that is being defined is tame with the marks `κ`. -/
structure Sketch (o : Options) (κ : Marks) (symbols : List (String × Sig)) (m : Module) (i : Nat)
    (f : Function) : Prop
    extends Drawing (IsUserFunction o) symbols m i f where
  name : IsUserName o f.name
  entry : Defines m o.entry
  size : f.registers.size = κ.length
  body : TameFunction o κ f

/-- Some function is being defined, and tame with the marks `κ`. -/
def Sketched (o : Options) (κ : Marks) (symbols : List (String × Sig)) (m : Module) : Prop :=
  ∃ i f, Sketch o κ symbols m i f

theorem TameFunction.mono (hκ : κ <+: κ') (h : TameFunction o κ f) : TameFunction o κ' f := fun b => (h b).mono hκ

/-- The function that is being defined has grown. -/
theorem Sketch.turn (h : Sketch o κ symbols m i f) (ht : Turns m m' i f') (hname : f'.name = f.name)
    (hsig : f'.sig = f.sig) (hdef : f'.isDefined = f.isDefined) (hsize : f'.registers.size = κ'.length)
    (hbody : TameFunction o κ' f') : Sketch o κ' symbols m' i f' where
  toDrawing := h.toDrawing.turn ht hname hsig hdef
  name := hname ▸ h.name
  entry := h.entry.turn h.function ht hname (hdef.trans h.isDefined)
  size := hsize
  body := hbody

/-- The definition is finished. -/
theorem Sketched.finish (h : Sketched o κ symbols m) : Declared (IsUserFunction o) symbols m ∧
    Defines m o.entry := by
  obtain ⟨i, f, h⟩ := h
  exact ⟨h.toDrawing.finish ⟨h.name, κ, h.body⟩, h.entry⟩

/-- A function starts with its parameters, which are all marked. -/
theorem sketched_define {name : String} (h : Declared (IsUserFunction o) symbols m)
    (hm : m.apply (.define name) = .ok m') (hname : IsUserName o name)
    (hentry : name = o.entry ∨ Defines m o.entry) :
    Sketched o (List.replicate (paramCount symbols name) true) symbols m' := by
  obtain ⟨i, g, hd, rfl, -, hparams, -, hself, hold⟩ := h.define hm
  refine ⟨i, _, ⟨hd, hname, ?_, ?_, fun b => ?_⟩⟩
  · rcases hentry with he | he
    · exact he ▸ hself
    · exact hold _ he
  · simpa [Function.begun] using hparams
  · rw [Function.code_begun]
    exact .nil

/-- The marks after an instruction. -/
def marksAfter (κ : Marks) (ins : Instr) : Marks := if ins.yieldsValue then κ ++ [true] else κ

theorem prefix_marksAfter (κ : Marks) (ins : Instr) : κ <+: marksAfter κ ins := by
  unfold marksAfter
  split
  · exact List.prefix_append _ _
  · exact List.prefix_rfl

theorem Sketched.instr {ins : Instr} (h : Sketched o κ symbols m) (hm : m.apply (.instr ins) = .ok m')
    (hins : TameInstr o κ ins) : Sketched o (marksAfter κ ins) symbols m' := by
  obtain ⟨i, f, h⟩ := h
  obtain ⟨t, -, ht, -, -, hb⟩ := append_eq_ok hm h.toFocus
  refine ⟨i, _, h.turn ht rfl rfl rfl ?_ fun b => ?_⟩
  · simp only [Function.push, marksAfter]
    split
    · simp [h.size]
    · exact h.size
  · rw [Function.code_push hb]
    have hbody := TameFunction.mono (prefix_marksAfter κ ins) h.body b
    split
    · exact hbody.append (.cons (hins.mono (prefix_marksAfter κ ins)) .nil)
    · exact hbody

/-- Commands that leave the functions alone. -/
theorem Sketched.congr (h : Sketched o κ symbols m) (hc : m'.current = m.current)
    (hf : m'.functions = m.functions) :
    Sketched o κ symbols m' := by
  obtain ⟨i, f, h⟩ := h
  refine ⟨i, f, ⟨h.toDrawing.congr hc hf, h.name, ?_, h.size, h.body⟩⟩
  unfold Defines
  rw [hf]
  exact h.entry

theorem Sketched.newBlock {name : String} (h : Sketched o κ symbols m) (hm : m.apply (.newBlock name) = .ok m') :
    Sketched o κ symbols m' := by
  obtain ⟨i, f, h⟩ := h
  obtain ⟨-, ht⟩ := apply_newBlock_eq_ok hm h.toFocus
  refine ⟨i, _, h.turn ht rfl rfl rfl h.size fun b => ?_⟩
  rw [Function.code_pushBlock]
  exact h.body b

theorem Sketched.alloca {t : Ir.Ty} (h : Sketched o κ symbols m) (hm : m.apply (.alloca t) = .ok m') :
    Sketched o (κ ++ [true]) symbols m' := by
  obtain ⟨i, f, h⟩ := h
  obtain ⟨-, ht⟩ := apply_alloca_eq_ok hm h.toFocus
  refine ⟨i, _, h.turn ht rfl rfl rfl ?_ fun b => ?_⟩
  · simp [h.size]
  · exact (h.body b).mono (List.prefix_append _ _)

theorem Sketched.declareFunc {name : String} {sig : Sig} (h : Sketched o κ symbols m)
    (hm : m.apply (.declareFunc name sig) = .ok m') : Sketched o κ (symbolsAfter symbols name sig) m' := by
  obtain ⟨i, f, h⟩ := h
  obtain ⟨hd, hdefines⟩ := h.toDrawing.declareFunc hm
  exact ⟨i, f, ⟨hd, h.name, hdefines _ h.entry, h.size, h.body⟩⟩

/-- An object is made: the address of its count is the one register without a mark. -/
theorem Sketched.make {m₀ m₁ m₂ m₃ m₄ m₅ : Module} {s : Struct} {size tag : Int} (h : Sketched o κ symbols m₀)
    (h₁ : m₀.append (.call allocateSig (.func o.allocate) [.null, .int .i64 size]) = .ok m₁)
    (h₂ : m₁.append (.fieldAddr s (.reg κ.length) tagSlot) = .ok m₂)
    (h₃ : m₂.append (.store (.reg (κ.length + 1)) (.int .i32 tag)) = .ok m₃)
    (h₄ : m₃.append (.fieldAddr s (.reg κ.length) countSlot) = .ok m₄)
    (h₅ : m₄.append (.store (.reg (κ.length + 2)) (.int .i32 1)) = .ok m₅) :
    Sketched o (κ ++ [true, true, false]) symbols m₅ := by
  obtain ⟨i, f, h⟩ := h
  obtain ⟨t₁, -, ht₁, hb₁, -, hlt₁⟩ := append_eq_ok h₁ h.toFocus
  obtain ⟨t₂, -, ht₂, hb₂, -, hlt₂⟩ := append_eq_ok h₂ ht₁.toFocus
  obtain ⟨t₃, -, ht₃, hb₃, -, hlt₃⟩ := append_eq_ok h₃ ht₂.toFocus
  obtain ⟨t₄, -, ht₄, hb₄, -, hlt₄⟩ := append_eq_ok h₄ ht₃.toFocus
  obtain ⟨t₅, -, ht₅, -, -, hlt₅⟩ := append_eq_ok h₅ ht₄.toFocus
  have ht : Turns m₀ m₅ i _ := (((ht₁.trans ht₂).trans ht₃).trans ht₄).trans ht₅
  refine ⟨i, _, h.turn ht ?_ ?_ ?_ ?_ fun b => ?_⟩
  · simp only [Function.push_name]
  · simp only [Function.push_sig]
  · simp only [Function.push_isDefined]
  · simp [Function.size_registers_push, Instr.yieldsValue, h.size]
  · have hbody := (h.body b).mono (List.prefix_append κ [true, true, false])
    rw [Function.code_push hlt₅, Function.code_push hlt₄, Function.code_push hlt₃, Function.code_push hlt₂,
      Function.code_push hlt₁]
    simp only [hb₁, hb₂, hb₃, hb₄]
    split
    · simp only [Function.size_registers_push, Instr.yieldsValue, h.size, List.append_assoc, List.cons_append,
        List.nil_append, if_true, Bool.false_eq_true, if_false]
      refine hbody.append (.alloc (Nat.succ_ne_self _) ?_ .nil)
      rw [List.getElem?_append_right (by omega)]
      simp [Nat.add_assoc]
    · exact hbody

end TypedScript.Lower
