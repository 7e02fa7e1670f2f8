import Mathlib.Order.Basic
import TypedScript.Proofs.Layout.Numbered
import TypedScript.Proofs.Lower.Regime
import TypedScript.Proofs.Lower.Sketch

/-!
# The invariant of lowering

While a function is lowered, the registers that were given out are marked, and every operand that is at hand for
it is clean: those of its scopes, what is to be released when they are left, and its environment. A scope of
another function keeps operands of that function, which are of no use here; so the functions that scopes belong to
are kept in mind, and a function is lowered only once.

* `Inv`: what holds of the state.
* `Keeps`: a computation that succeeds keeps it, and its result has a property.
-/

namespace TypedScript.Lower

open TypedScript.Ast TypedScript.Ir TypedScript.Layout TypedScript.Machine

/-- What is known while a function is lowered: the marks of its registers, the functions that the scopes belong
to, and the function itself. -/
structure World where
  marks : Marks
  owners : List Nat
  fn : Nat

/-- Registers and scopes have been added. -/
structure World.Le (w w' : World) : Prop where
  marks : w.marks <+: w'.marks
  owners : w.owners <+: w'.owners
  fn : w'.fn = w.fn

instance : Preorder World where
  le := World.Le
  le_refl w := ⟨List.prefix_rfl, List.prefix_rfl, rfl⟩
  le_trans w₁ w₂ w₃ h h' := ⟨h.marks.trans h'.marks, h.owners.trans h'.owners, h'.fn.trans h.fn⟩

/-- The scope belongs to the function that is lowered. -/
def World.Inside (w : World) (scope : Nat) : Prop := w.owners[scope]? = some w.fn

theorem World.Inside.mono {w w' : World} {scope : Nat} (h : w.Inside scope) (hw : w ≤ w') : w'.Inside scope := by
  obtain ⟨t, ht⟩ := hw.owners
  unfold World.Inside
  rw [← ht, hw.fn, List.getElem?_append_left (List.getElem?_eq_some_iff.1 h).1]
  exact h

theorem clean_mono {o : Options} {w w' : World} {x : Operand} (h : Clean o w.marks x) (hw : w ≤ w') :
    Clean o w'.marks x :=
  h.mono hw.marks

/-! ### Scopes -/

/-- Whether the declaration is a function that is known by name. -/
def isNamedFunction (t : Tree) (decl : Nat) : Bool :=
  match t.form? decl with
  | some (.declareFunc ..) | some (.funcDecl ..) => true
  | _ => false

structure SoundBinding (inp : Input) (b : Scope.Binding) : Prop where
  field : b.field.slot ≠ countSlot
  kind : b.kind.isFunction = isNamedFunction inp.tree b.decl
  slot : b.kind.isFunction = true → b.slot = .absent
  code : b.kind.isFunction = true → b.code ∉ reservedNames inp.options

/-- The operands of a scope of the function that is lowered are clean. -/
structure SoundNode (inp : Input) (w : World) (n : Scope.Node) : Prop where
  layout : ∀ d, n.layout = some d → d.IsPlaced
  bindings : ∀ b ∈ n.bindings, SoundBinding inp b
  object : n.function = w.fn → Clean inp.options w.marks n.object
  slots : n.function = w.fn → ∀ b ∈ n.bindings, Clean inp.options w.marks b.slot
  deferred : n.function = w.fn → ∀ d ∈ n.deferred, Clean inp.options w.marks d.operand

variable {inp : Input} {w w' : World} {s s' : State} {α β : Type}

theorem SoundNode.mono {n : Scope.Node} (h : SoundNode inp w n) (hw : w ≤ w') : SoundNode inp w' n where
  layout := h.layout
  bindings := h.bindings
  object hn := clean_mono (h.object (hn.trans hw.fn)) hw
  slots hn b hb := clean_mono (h.slots (hn.trans hw.fn) b hb) hw
  deferred hn d hd := clean_mono (h.deferred (hn.trans hw.fn) d hd) hw

/-- A scope that was just opened. -/
theorem SoundNode.blank {n : Scope.Node} (hl : n.layout = none) (hb : n.bindings = []) (ho : n.object = .absent)
    (hd : n.deferred = []) : SoundNode inp w n where
  layout d h := by rw [hl] at h; cases h
  bindings b h := by rw [hb] at h; cases h
  object _ := by rw [ho]; trivial
  slots _ b h := by rw [hb] at h; cases h
  deferred _ d h := by rw [hd] at h; cases h

/-! ### The state -/

/-- The functions that wait are all different, and none of them has been begun. -/
structure Waiting (t : Tree) (w : World) (codes : List (Nat × String)) (queue : List Pending) : Prop where
  nodup : (queue.map (·.node)).Nodup
  node : ∀ p ∈ queue, t.isFunction p.node = true ∧ p.node ∉ w.owners ∧ p.node ≠ w.fn
  code : ∀ p ∈ queue, codes.lookup p.node = some p.code

/-- The symbols of functions are declared, and none of them is reserved; the helpers are declared as such. -/
structure SoundCodes (o : Options) (codes : List (Nat × String)) (symbols : List (String × Sig)) : Prop where
  free : ∀ fn name, codes.lookup fn = some name → name ∉ reservedNames o
  declared : ∀ fn name, codes.lookup fn = some name → (symbols.lookup name).isSome
  params : ∀ name, (symbols.lookup name).isSome → name ∉ reservedNames o → 0 < paramCount symbols name
  helpers : ∀ name ∈ helperNames, symbols.lookup name = some helperSig

structure Inv (inp : Input) (w : World) (s : State) : Prop where
  sketched : ∀ m, Built s.commands m → Sketched inp.options w.marks s.symbols m
  registers : s.registers = w.marks.length
  env : Clean inp.options w.marks s.env
  layouts : s.registry.IsPlaced
  owners : s.chain.nodes.toList.map (·.function) = w.owners
  nodes : ∀ n ∈ s.chain.nodes, SoundNode inp w n
  codes : SoundCodes inp.options s.codes s.symbols
  /-- A function that has been begun has a symbol. -/
  begun : ∀ n, n ∈ w.owners ∨ n = w.fn → n = 0 ∨ (s.codes.lookup n).isSome
  queue : Waiting inp.tree w s.codes s.queue

/-- The functions of scopes that are not there count as the module. -/
theorem Inv.function_eq (h : Inv inp w s) (n : Nat) : s.chain.function n = w.owners.getD n 0 := by
  rw [← h.owners]
  simp only [Scope.Chain.function, Scope.Chain.get, Array.getD_eq_getD_getElem?, List.getD_eq_getElem?_getD,
    List.getElem?_map, Array.getElem?_toList]
  cases s.chain.nodes[n]? <;> rfl

theorem Inv.function_of_inside (h : Inv inp w s) {n : Nat} (hn : w.Inside n) : s.chain.function n = w.fn := by
  rw [h.function_eq, List.getD_eq_getElem?_getD, hn]
  rfl

theorem Inv.node (h : Inv inp w s) (n : Nat) : SoundNode inp w (s.chain.get n) := by
  unfold Scope.Chain.get
  rw [Array.getD_eq_getD_getElem?]
  cases hn : s.chain.nodes[n]? with
  | none => exact .blank rfl rfl rfl rfl
  | some node => exact h.nodes node (Array.mem_of_getElem? hn)

/-- More has been commanded. -/
theorem Inv.command (h : Inv inp w s) {κ : Marks} {cs : Array Command} {n : Nat} (hκ : w.marks <+: κ)
    (hcs : ∀ m, Built cs m → Sketched inp.options κ s.symbols m) (hn : n = κ.length) :
    Inv inp { w with marks := κ } { s with commands := cs, registers := n } where
  sketched := hcs
  registers := hn
  env := h.env.mono hκ
  layouts := h.layouts
  owners := h.owners
  nodes node hnode := (h.nodes node hnode).mono ⟨hκ, List.prefix_rfl, rfl⟩
  codes := h.codes
  begun := h.begun
  queue := ⟨h.queue.nodup, h.queue.node, h.queue.code⟩

/-- A scope has been changed. -/
theorem Inv.modifyNode (h : Inv inp w s) {n : Nat} {f : Scope.Node → Scope.Node}
    (hf : ∀ node, SoundNode inp w node → (f node).function = node.function ∧ SoundNode inp w (f node)) :
    Inv inp w { s with chain := s.chain.modify n f } where
  sketched := h.sketched
  registers := h.registers
  env := h.env
  layouts := h.layouts
  owners := by
    rw [← h.owners]
    refine List.ext_getElem? fun j => ?_
    simp only [Scope.Chain.modify, List.getElem?_map, Array.getElem?_toList, Array.getElem?_modify]
    split
    · cases hj : s.chain.nodes[j]? with
      | none => rfl
      | some node => exact congrArg some (hf node (h.nodes node (Array.mem_of_getElem? hj))).1
    · rfl
  nodes node hnode := by
    obtain ⟨j, hj⟩ := Array.mem_iff_getElem?.1 hnode
    simp only [Scope.Chain.modify, Array.getElem?_modify] at hj
    split at hj
    · obtain ⟨node', hnode', rfl⟩ := Option.map_eq_some_iff.1 hj
      exact (hf node' (h.nodes node' (Array.mem_of_getElem? hnode'))).2
    · exact h.nodes node (Array.mem_of_getElem? hj)
  codes := h.codes
  begun := h.begun
  queue := h.queue

/-- A scope of the function has been opened. -/
theorem Inv.openNode (h : Inv inp w s) {node : Scope.Node} (hfn : node.function = w.fn)
    (hnode : SoundNode inp w node) :
    Inv inp { w with owners := w.owners ++ [w.fn] } { s with chain := ⟨s.chain.nodes.push node⟩ } where
  sketched := h.sketched
  registers := h.registers
  env := h.env
  layouts := h.layouts
  owners := by simp [h.owners, hfn]
  nodes n hn := by
    rcases Array.mem_push.1 hn with hn | rfl
    · exact (h.nodes n hn).mono ⟨List.prefix_rfl, List.prefix_append _ _, rfl⟩
    · exact hnode.mono ⟨List.prefix_rfl, List.prefix_append _ _, rfl⟩
  codes := h.codes
  begun n hn := h.begun n (by simpa [or_assoc] using hn)
  queue := by
    refine ⟨h.queue.nodup, fun p hp => ?_, h.queue.code⟩
    obtain ⟨hfun, hown, hfn⟩ := h.queue.node p hp
    exact ⟨hfun, by simp [hown, hfn], hfn⟩

/-- Scopes are numbered as they are opened. -/
theorem Inv.inside_openNode (h : Inv inp w s) :
    World.Inside { w with owners := w.owners ++ [w.fn] } s.chain.nodes.size := by
  have hlen : w.owners.length = s.chain.nodes.size := by rw [← h.owners]; simp
  rw [← hlen]
  simp [World.Inside]

/-! ### Computations -/

/-- Lowering is looked at as long as it succeeds. -/
@[reducible]
def keepRegime (inp : Input) : Regime where
  World := World
  Holds := Inv inp
  Le _ _ w w' := w ≤ w'
  Live _ := True
  Fault _ _ := True
  Allowed _ := True
  refl := le_refl _
  trans := le_trans
  any h := h
  fault _ _ := trivial
  located _ _ := trivial

/-- If the computation succeeds it keeps the invariant, and its result has the property in what is known then. -/
abbrev Keeps (inp : Input) (w : World) (act : LowerM α) (Q : World → α → Prop) : Prop :=
  (keepRegime inp).Goes none w act Q

/-- The computation gives out no registers and opens no scopes. -/
abbrev Rests (inp : Input) (w : World) (act : LowerM α) (P : α → Prop) : Prop :=
  Keeps inp w act fun w' a => w' = w ∧ P a

namespace Keeps

variable {act : LowerM α} {Q : World → α → Prop} {P : α → Prop}

theorem of_runs (h : ∀ s, Inv inp w s → ∀ a s', Runs act s a s' → ∃ w', w ≤ w' ∧ Inv inp w' s' ∧ Q w' a) :
    Keeps inp w act Q := by
  refine fun _ s hs => ⟨fun a s' hrun => ?_, fun _ _ _ => trivial⟩
  obtain ⟨w', hw, hs', hq⟩ := h s hs a s' hrun
  exact ⟨w', hs', hw, trivial, hq⟩

theorem run {a : α} (h : Keeps inp w act Q) (hs : Inv inp w s) (hrun : Runs act s a s') :
    ∃ w', Inv inp w' s' := by
  obtain ⟨w', hs', -⟩ := (h trivial s hs).1 a s' hrun
  exact ⟨w', hs'⟩

/-- A step that changes nothing that is known. -/
theorem rest {f : α → LowerM β} {R : World → β → Prop} (h : Rests inp w act P)
    (hf : ∀ a, P a → Keeps inp w (f a) R) : Keeps inp w (act >>= f) R := by
  refine h.bind fun w' a _ ha => ?_
  obtain ⟨rfl, ha⟩ := ha
  exact hf a ha

/-- A change of the state that leaves what is known as it is. -/
theorem update {f : State → State} (h : ∀ s, Inv inp w s → Inv inp w (f s)) :
    Rests inp w (modify f : LowerM Unit) fun _ => True := by
  refine of_runs fun s hs a s' hrun => ?_
  obtain rfl := runs_modify.1 hrun
  exact ⟨w, le_refl w, h s hs, rfl, trivial⟩

theorem changeGet {f : State → α × State}
    (h : ∀ s, Inv inp w s → ∃ w', w ≤ w' ∧ Inv inp w' (f s).2 ∧ Q w' (f s).1) : Keeps inp w (modifyGet f) Q := by
  refine of_runs fun s hs a s' hrun => ?_
  obtain ⟨rfl, rfl⟩ := runs_modifyGet.1 hrun
  exact h s hs

end Keeps

end TypedScript.Lower
