import TypedScript.Proofs.Lower.Sketch
import TypedScript.Proofs.Machine.Build
import TypedScript.Proofs.Machine.WellFormed

/-!
# Keeping account of what is defined

Commands are given one after another, and control goes other ways. Still the commands alone tell which registers
are defined wherever an instruction goes: those of the block before it, and those that were defined when the block
was made, for it is never entered but from there on. A ledger keeps account of that.

* `Ledger.Allows`: the command reads only what is defined, and branches only to blocks whose registers are all
  defined.
* `Accounted`: every command is allowed by those before it.
* `functions_wellFormed`: accounted commands build well-formed functions.
-/

namespace TypedScript.Lower

open TypedScript.Ir TypedScript.Machine

/-- What the commands so far tell of the function being defined. -/
structure Ledger where
  symbols : List (String × Sig) := []
  registers : Nat := 0
  blocks : Nat := 0
  block : Nat := 0
  ended : List Nat := []
  /-- The registers that are defined at the start of each block. -/
  starts : Nat → List Nat := fun _ => []
  /-- The registers that are defined where instructions go to. -/
  here : List Nat := []

namespace Ledger

/-- The ledger after a command. -/
def next (l : Ledger) : Command → Ledger
  | .declareFunc name sig => { l with symbols := symbolsAfter l.symbols name sig }
  | .define name =>
    let count := paramCount l.symbols name
    { symbols := l.symbols, registers := count, blocks := 1,
      starts := fun _ => List.range count, here := List.range count }
  | .newBlock _ => { l with blocks := l.blocks + 1, starts := fun b => if b = l.blocks then l.here else l.starts b }
  | .setInsert b => { l with block := b, here := l.starts b }
  | .alloca _ => { l with registers := l.registers + 1, here := l.registers :: l.here }
  | .instr i => { l with
      registers := if i.yieldsValue then l.registers + 1 else l.registers
      ended := if i.isTerminator then l.block :: l.ended else l.ended
      here := if i.yieldsValue then l.registers :: l.here else l.here }
  | .declareStruct _ | .constant _ => l

/-- All blocks are ended. -/
def IsComplete (l : Ledger) : Prop := ∀ b < l.blocks, b ∈ l.ended

/-- What is defined at the start of the block is defined here, so the block may be branched to. -/
def LeadsTo (l : Ledger) (b : Nat) : Prop := b < l.blocks ∧ ∀ r ∈ l.starts b, r ∈ l.here

/-- The command reads and branches to what is there; a function is begun when the one before it is complete. -/
def Allows (l : Ledger) : Command → Prop
  | .define _ => l.IsComplete
  | .instr i => (∀ r, .reg r ∈ operands i → r ∈ l.here) ∧ ∀ b ∈ targets i, l.LeadsTo b
  | _ => True

/-- The ledger after commands. -/
def of (cs : Array Command) : Ledger := cs.foldl next {}

theorem of_push (cs : Array Command) (c : Command) : of (cs.push c) = (of cs).next c := by simp [of]

end Ledger

/-- Every command is allowed by those before it. -/
inductive Accounted : Array Command → Prop
  | nil : Accounted #[]
  | push {cs : Array Command} {c : Command} : Accounted cs → (Ledger.of cs).Allows c → Accounted (cs.push c)

/-! ### One line more -/

section

variable {f : Function} {b : Nat} {i : Instr} {t : Ir.Ty}

/-- The new line stands at the end of its block. -/
theorem line?_push (hb : b < f.blocks.size) {p : Place} {l : Line} : (f.push b i t).line? p = some l ↔
    f.line? p = some l ∨ p = ⟨b, (f.code b).length⟩ ∧
      l = ⟨if i.yieldsValue then some f.registers.size else none, i⟩ := by
  obtain ⟨b', k⟩ := p
  unfold Function.line?
  dsimp only
  rw [Function.code_push hb]
  by_cases hbb : b' = b
  · subst hbb
    rw [if_pos rfl]
    by_cases hk : k < (f.code b').length
    · rw [List.getElem?_append_left hk]
      have hne : (⟨b', k⟩ : Place) ≠ ⟨b', (f.code b').length⟩ := fun h => Nat.ne_of_lt hk (Place.mk.inj h).2
      simp [hne]
    · have hnone : (f.code b')[k]? = none := List.getElem?_eq_none (Nat.le_of_not_lt hk)
      rw [List.getElem?_append_right (Nat.le_of_not_lt hk), hnone, List.getElem?_singleton]
      by_cases hkl : k = (f.code b').length
      · subst hkl
        simp [eq_comm (a := l)]
      · have hsub : k - (f.code b').length ≠ 0 := by omega
        simp [hsub, hkl]
  · rw [if_neg hbb]
    simp [hbb]

theorem Sets.push (hb : b < f.blocks.size) {p : Place} {r : Nat} : (f.push b i t).Sets p r ↔
    f.Sets p r ∨ p = ⟨b, (f.code b).length⟩ ∧ i.yieldsValue = true ∧ r = f.registers.size := by
  unfold Function.Sets
  constructor
  · rintro ⟨l, hl, hr⟩
    rcases (line?_push hb).1 hl with hold | ⟨rfl, rfl⟩
    · exact .inl ⟨l, hold, hr⟩
    · right
      cases hy : i.yieldsValue <;> simp [hy] at hr
      exact ⟨rfl, rfl, hr.symm⟩
  · rintro (⟨l, hl, hr⟩ | ⟨rfl, hy, rfl⟩)
    · exact ⟨l, (line?_push hb).2 (.inl hl), hr⟩
    · exact ⟨_, (line?_push hb).2 (.inr ⟨rfl, rfl⟩), by simp [hy]⟩

/-- A function that has grown has what it had. -/
theorem Has.grow {g : Function} {starts starts' : Nat → List Nat} {k r : Nat} (h : f.Has starts b k r)
    (hslots : ∀ x ∈ f.slots, x ∈ g.slots) (hsets : ∀ p x, f.Sets p x → g.Sets p x)
    (hstarts : ∀ x ∈ starts b, x ∈ starts' b) : g.Has starts' b k r := by
  rcases h with h | h | ⟨j, hj, hset⟩
  · exact .inl (hslots r h)
  · exact .inr (.inl (hstarts r h))
  · exact .inr (.inr ⟨j, hj, hsets _ _ hset⟩)

theorem lt_size_of_line? {p : Place} {l : Line} (h : f.line? p = some l) : p.block < f.blocks.size := by
  refine Nat.lt_of_not_le fun hge => ?_
  have hcode : f.code p.block = [] := by
    unfold Function.code
    rw [Array.getD_eq_getD_getElem?, Array.getElem?_eq_none hge]
    rfl
  simp [Function.line?, hcode] at h

end

/-! ### What the ledger tells of a function -/

/-- The function that is being defined is as the ledger tells. -/
structure Tracks (l : Ledger) (f : Function) : Prop where
  registers : f.registers.size = l.registers
  blocks : f.blocks.size = l.blocks
  entry : 0 < l.blocks
  params_le : f.sig.params.length ≤ l.registers
  slots_lt : ∀ r ∈ f.slots, r < l.registers
  sets_lt : ∀ p r, f.Sets p r → r < l.registers
  starts_lt : ∀ b, ∀ r ∈ l.starts b, r < l.registers
  certified : f.Certified l.starts
  here : ∀ r ∈ l.here, f.Has l.starts l.block (f.code l.block).length r
  targets : ∀ p x t, f.line? p = some x → t ∈ targets x.instr → t < l.blocks
  ended : ∀ b ∈ l.ended, ∃ x, (f.code b).getLast? = some x ∧ x.instr.isTerminator = true
  last : ∀ p x, f.line? p = some x → x.instr.isTerminator = true → p.line + 1 = (f.code p.block).length
  single : ∀ p q r, f.Sets p r → f.Sets q r → p = q
  fresh : ∀ p r, f.Sets p r → f.sig.params.length ≤ r ∧ r ∉ f.slots

namespace Tracks

variable {l : Ledger} {f : Function}

theorem here_lt (h : Tracks l f) {r : Nat} (hr : r ∈ l.here) : r < l.registers := by
  rcases h.here r hr with hslot | hstart | ⟨j, -, hset⟩
  · exact h.slots_lt r hslot
  · exact h.starts_lt _ r hstart
  · exact h.sets_lt _ _ hset

/-- A function whose blocks are all ended is well formed. -/
theorem wellFormed (h : Tracks l f) (hl : l.IsComplete) : f.WellFormed where
  entry := h.blocks ▸ h.entry
  ended b hb := by
    obtain ⟨x, hx, hterm⟩ := h.ended b (hl b (h.blocks ▸ hb))
    obtain ⟨init, hinit⟩ := List.getLast?_eq_some_iff.1 hx
    refine ⟨init, x, hinit, hterm, fun y hy => ?_⟩
    obtain ⟨k, hk⟩ := List.mem_iff_getElem?.1 hy
    have hlt : k < init.length := (List.getElem?_eq_some_iff.1 hk).1
    have hline : f.line? ⟨b, k⟩ = some y := by
      unfold Function.line?
      rw [hinit, List.getElem?_append_left hlt, hk]
    cases hyt : y.instr.isTerminator with
    | false => rfl
    | true =>
      have hend : k + 1 = (f.code b).length := h.last _ y hline hyt
      rw [hinit, List.length_append, List.length_singleton] at hend
      omega
  targets p x t hx ht := h.blocks ▸ h.targets p x t hx ht
  operands p x r hx hr := by
    have hhas := h.certified.uses p.block p.line x r hx hr
    refine ⟨?_, fun ps hps => h.certified.isDefinedOn hps hhas⟩
    rw [h.registers]
    rcases hhas with hslot | hstart | ⟨j, -, hset⟩
    · exact h.slots_lt r hslot
    · exact h.starts_lt _ r hstart
    · exact h.sets_lt _ _ hset
  single := h.single
  fresh := h.fresh

/-- A function that begins has its parameters. -/
theorem begin {g : Function} {name : String} (hslots : g.slots = [])
    (hparams : g.sig.params.length = paramCount l.symbols name) :
    Tracks (l.next (.define name)) g.begun := by
  have hnone (p : Place) (x : Line) : g.begun.line? p ≠ some x := by
    unfold Function.line?
    rw [Function.code_begun]
    simp
  have hsets (p : Place) (r : Nat) : ¬ g.begun.Sets p r := by
    rintro ⟨x, hx, -⟩
    exact hnone p x hx
  have hbelow : ∀ b, ∀ r ∈ (l.next (.define name)).starts b, r < paramCount l.symbols name := by
    intro b r hr
    exact List.mem_range.1 hr
  constructor
  case registers => simpa [Function.begun, Ledger.next] using hparams
  case blocks => rfl
  case entry => exact Nat.zero_lt_one
  case params_le => exact Nat.le_of_eq hparams
  case slots_lt => simp [Function.begun, hslots]
  case sets_lt => exact fun p r h => (hsets p r h).elim
  case starts_lt => exact hbelow
  case certified =>
    refine ⟨fun r hr => ?_, fun b i x r hx => (hnone _ x hx).elim, fun b i x t hx => (hnone _ x hx).elim⟩
    exact Nat.lt_of_lt_of_eq (hbelow 0 r hr) hparams.symm
  case here => exact fun r hr => .inr (.inl hr)
  case targets => exact fun p x t hx => (hnone p x hx).elim
  case ended =>
    intro b hb
    cases hb
  case last => exact fun p x hx => (hnone p x hx).elim
  case single => exact fun p q r h => (hsets p r h).elim
  case fresh => exact fun p r h => (hsets p r h).elim

/-- What is defined here is defined wherever the new block is entered. -/
theorem newBlock (h : Tracks l f) (name other : String) :
    Tracks (l.next (.newBlock name)) { f with blocks := f.blocks.push { name := other } } := by
  have hline (p : Place) : ({ f with blocks := f.blocks.push { name := other } } : Function).line? p =
    f.line? p := by
    unfold Function.line?
    rw [Function.code_pushBlock]
  have hsets (p : Place) (r : Nat) : ({ f with blocks := f.blocks.push { name := other } } : Function).Sets p r ↔
    f.Sets p r := by
    unfold Function.Sets
    rw [hline]
  have hold {b : Nat} (hb : b ≠ l.blocks) : (l.next (.newBlock name)).starts b = l.starts b := if_neg hb
  have hne {b i : Nat} {x : Line} (hx : f.line? ⟨b, i⟩ = some x) : b ≠ l.blocks :=
    Nat.ne_of_lt (h.blocks ▸ lt_size_of_line? hx)
  have hhas {b i r : Nat} (hb : b ≠ l.blocks) (hr : f.Has l.starts b i r) :
      Function.Has { f with blocks := f.blocks.push { name := other } } (l.next (.newBlock name)).starts b i r := by
    refine Has.grow hr (fun _ hx => hx) (fun p x hx => (hsets p x).2 hx) fun x hx => ?_
    rw [hold hb]
    exact hx
  have hentry : (0 : Nat) ≠ l.blocks := Nat.ne_of_lt h.entry
  constructor
  case registers => exact h.registers
  case blocks => simp [Ledger.next, h.blocks]
  case entry => exact Nat.succ_pos _
  case params_le => exact h.params_le
  case slots_lt => exact h.slots_lt
  case sets_lt => exact fun p r hr => h.sets_lt p r ((hsets p r).1 hr)
  case starts_lt =>
    intro b r hr
    by_cases hb : b = l.blocks
    · simp only [Ledger.next, hb, if_true] at hr
      exact h.here_lt hr
    · rw [hold hb] at hr
      exact h.starts_lt b r hr
  case certified =>
    refine ⟨fun r hr => ?_, fun b i x r hx hr => ?_, fun b i x t hx ht r hr => ?_⟩
    · rw [hold hentry] at hr
      exact h.certified.entry r hr
    · rw [hline] at hx
      exact hhas (hne hx) (h.certified.uses b i x r hx hr)
    · rw [hline] at hx
      rw [hold (Nat.ne_of_lt (h.targets _ x t hx ht))] at hr
      exact hhas (hne hx) (h.certified.jumps b i x t hx ht r hr)
  case here =>
    intro r hr
    rw [Function.code_pushBlock]
    by_cases hb : l.block = l.blocks
    · right
      left
      change r ∈ if l.block = l.blocks then l.here else l.starts l.block
      rw [if_pos hb]
      exact hr
    · exact hhas hb (h.here r hr)
  case targets =>
    intro p x t hx ht
    rw [hline] at hx
    exact Nat.lt_succ_of_lt (h.targets p x t hx ht)
  case ended =>
    intro b hb
    rw [Function.code_pushBlock]
    exact h.ended b hb
  case last =>
    intro p x hx hterm
    rw [hline] at hx
    rw [Function.code_pushBlock]
    exact h.last p x hx hterm
  case single => exact fun p q r hp hq => h.single p q r ((hsets p r).1 hp) ((hsets q r).1 hq)
  case fresh => exact fun p r hp => h.fresh p r ((hsets p r).1 hp)

theorem setInsert (h : Tracks l f) (b : Nat) : Tracks (l.next (.setInsert b)) f :=
  { h with here := fun _ hr => .inr (.inl hr) }

/-- A stack slot is there for the whole function. -/
theorem alloca (h : Tracks l f) (t : Ir.Ty) : Tracks (l.next (.alloca t)) { f with
    slots := f.slots ++ [f.registers.size]
    registers := f.registers.push Scalar.ptr } := by
  have hhas {b i r : Nat} (hr : f.Has l.starts b i r) : Function.Has { f with
      slots := f.slots ++ [f.registers.size]
      registers := f.registers.push Scalar.ptr } l.starts b i r :=
    Has.grow hr (fun _ hx => List.mem_append_left _ hx) (fun _ _ hx => hx) fun _ hx => hx
  constructor
  case registers => simp [Ledger.next, h.registers]
  case blocks => exact h.blocks
  case entry => exact h.entry
  case params_le => exact Nat.le_succ_of_le h.params_le
  case slots_lt =>
    intro r hr
    rcases List.mem_append.1 hr with hr | hr
    · exact Nat.lt_succ_of_lt (h.slots_lt r hr)
    · rw [List.mem_singleton.1 hr, h.registers]
      exact Nat.lt_succ_self _
  case sets_lt => exact fun p r hr => Nat.lt_succ_of_lt (h.sets_lt p r hr)
  case starts_lt => exact fun b r hr => Nat.lt_succ_of_lt (h.starts_lt b r hr)
  case certified =>
    exact ⟨h.certified.entry, fun b i x r hx hr => hhas (h.certified.uses b i x r hx hr),
      fun b i x t hx ht r hr => hhas (h.certified.jumps b i x t hx ht r hr)⟩
  case here =>
    intro r hr
    rcases List.mem_cons.1 hr with rfl | hr
    · left
      rw [← h.registers]
      exact List.mem_append_right _ List.mem_cons_self
    · exact hhas (h.here r hr)
  case targets => exact h.targets
  case ended => exact h.ended
  case last => exact h.last
  case single => exact h.single
  case fresh =>
    intro p r hp
    refine ⟨(h.fresh p r hp).1, fun hmem => ?_⟩
    rcases List.mem_append.1 hmem with hmem | hmem
    · exact (h.fresh p r hp).2 hmem
    · have hlt := h.sets_lt p r hp
      rw [List.mem_singleton.1 hmem, h.registers] at hlt
      exact Nat.lt_irrefl _ hlt

/-- An instruction that is allowed goes to the end of the block at hand, which is not ended. -/
theorem instr (h : Tracks l f) {i : Instr} (t : Ir.Ty) (hi : l.Allows (.instr i)) (hlt : l.block < f.blocks.size)
    (hopen : ∀ x, (f.code l.block).getLast? = some x → x.instr.isTerminator = false) :
    Tracks (l.next (.instr i)) (f.push l.block i t) := by
  obtain ⟨hreads, hbranches⟩ := hi
  have hcode (b : Nat) : (f.push l.block i t).code b =
      if b = l.block then f.code b ++ [⟨if i.yieldsValue then some f.registers.size else none, i⟩] else f.code b :=
    Function.code_push hlt i t b
  have hhas {b k r : Nat} (hr : f.Has l.starts b k r) : (f.push l.block i t).Has l.starts b k r :=
    Has.grow hr (fun _ hx => hx) (fun _ _ hx => (Sets.push hlt).2 (.inl hx)) fun _ hx => hx
  have hle : l.registers ≤ (l.next (.instr i)).registers := by
    simp only [Ledger.next]
    split <;> omega
  -- what is set by the new line is a new register
  have hnew {p : Place} {r : Nat} (hset : (f.push l.block i t).Sets p r) : f.Sets p r ∨
      p = ⟨l.block, (f.code l.block).length⟩ ∧ i.yieldsValue = true ∧ r = l.registers := by
    rw [← h.registers]
    exact (Sets.push hlt).1 hset
  constructor
  case registers =>
    rw [Function.size_registers_push, h.registers]
    simp only [Ledger.next]
    split <;> rfl
  case blocks => rw [Function.size_blocks_push, h.blocks]; rfl
  case entry => exact h.entry
  case params_le => exact Nat.le_trans h.params_le hle
  case slots_lt => exact fun r hr => Nat.lt_of_lt_of_le (h.slots_lt r hr) hle
  case sets_lt =>
    intro p r hset
    rcases hnew hset with hold | ⟨-, hy, rfl⟩
    · exact Nat.lt_of_lt_of_le (h.sets_lt p r hold) hle
    · simp [Ledger.next, hy]
  case starts_lt => exact fun b r hr => Nat.lt_of_lt_of_le (h.starts_lt b r hr) hle
  case certified =>
    refine ⟨h.certified.entry, fun b k x r hx hr => ?_, fun b k x u hx hu r hr => ?_⟩
    · rcases (line?_push hlt).1 hx with hold | ⟨hp, rfl⟩
      · exact hhas (h.certified.uses b k x r hold hr)
      · obtain ⟨rfl, rfl⟩ := Place.mk.inj hp
        exact hhas (h.here r (hreads r hr))
    · rcases (line?_push hlt).1 hx with hold | ⟨hp, rfl⟩
      · exact hhas (h.certified.jumps b k x u hold hu r hr)
      · obtain ⟨rfl, rfl⟩ := Place.mk.inj hp
        exact hhas (h.here r ((hbranches u hu).2 r hr))
  case here =>
    intro r hr
    have hlength : ((f.push l.block i t).code l.block).length = (f.code l.block).length + 1 := by
      rw [hcode, if_pos rfl, List.length_append, List.length_singleton]
    change (f.push l.block i t).Has l.starts l.block ((f.push l.block i t).code l.block).length r
    rw [hlength]
    have hold (hr : r ∈ l.here) := (hhas (h.here r hr)).mono (Nat.le_succ _)
    simp only [Ledger.next] at hr
    split at hr
    · rename_i hy
      rcases List.mem_cons.1 hr with rfl | hr
      · refine .inr (.inr ⟨_, Nat.lt_succ_self _, (Sets.push hlt).2 (.inr ⟨rfl, hy, h.registers.symm⟩)⟩)
      · exact hold hr
    · exact hold hr
  case targets =>
    intro p x u hx hu
    rcases (line?_push hlt).1 hx with hold | ⟨-, rfl⟩
    · exact h.targets p x u hold hu
    · exact (hbranches u hu).1
  case ended =>
    intro b hb
    rw [hcode]
    by_cases hbb : b = l.block
    · rw [if_pos hbb, List.getLast?_append, List.getLast?_singleton]
      refine ⟨_, rfl, ?_⟩
      -- a block that was ended before could not be added to
      simp only [Ledger.next] at hb
      split at hb
      · assumption
      · obtain ⟨x, hx, hterm⟩ := h.ended b hb
        rw [hbb] at hx
        rw [hopen x hx] at hterm
        exact nomatch hterm
    · rw [if_neg hbb]
      refine h.ended b ?_
      simp only [Ledger.next] at hb
      split at hb
      · exact (List.mem_cons.1 hb).resolve_left hbb
      · exact hb
  case last =>
    intro p x hx hterm
    rcases (line?_push hlt).1 hx with hold | ⟨rfl, rfl⟩
    · have hend := h.last p x hold hterm
      have hne : p.block ≠ l.block := by
        intro heq
        have hlast : (f.code l.block).getLast? = some x := by
          rw [List.getLast?_eq_getElem?, ← heq, ← hend]
          exact hold
        rw [hopen x hlast] at hterm
        exact nomatch hterm
      rw [hcode, if_neg hne]
      exact hend
    · rw [hcode, if_pos rfl, List.length_append, List.length_singleton]
  case single =>
    intro p q r hp hq
    rcases hnew hp with hp | ⟨rfl, -, rfl⟩ <;> rcases hnew hq with hq | ⟨rfl, -, hr⟩
    · exact h.single p q r hp hq
    · exact absurd (h.sets_lt p r hp) (by omega)
    · exact absurd (h.sets_lt q _ hq) (Nat.lt_irrefl _)
    · rfl
  case fresh =>
    intro p r hp
    rcases hnew hp with hp | ⟨-, -, rfl⟩
    · exact h.fresh p r hp
    · exact ⟨h.params_le, fun hmem => Nat.lt_irrefl _ (h.slots_lt _ hmem)⟩

end Tracks

/-! ### What the ledger tells of the module -/

/-- All functions with a body are well formed, apart from the one that is being defined, which is as the ledger
tells. -/
structure Agrees (l : Ledger) (m : Module) : Prop where
  listed : Listed l.symbols m
  drawn : (m.current = none ∧ ∀ g ∈ m.functions, g.isDefined = false) ∨ ∃ i f, Focus m i f ∧ f.isDefined = true ∧
    m.block = l.block ∧ Tracks l f ∧ ∀ j g, j ≠ i → m.functions[j]? = some g → g.isDefined = true → g.WellFormed

namespace Agrees

variable {l : Ledger} {m m' : Module}

/-- Commands that leave functions alone. -/
theorem congr (h : Agrees l m) (hcurrent : m'.current = m.current) (hfunctions : m'.functions = m.functions)
    (hblock : m'.block = m.block) : Agrees l m' := by
  have hsigs : m'.sigs = m.sigs := by rw [Module.sigs, Module.sigs, hfunctions]
  refine ⟨⟨hfunctions ▸ h.listed.blank, fun name => hsigs ▸ h.listed.sigs name, hsigs ▸ h.listed.nodup⟩, ?_⟩
  rw [hcurrent, hfunctions]
  refine h.drawn.imp_right ?_
  rintro ⟨i, f, hf, hdef, hb, ht, hrest⟩
  exact ⟨i, f, ⟨hcurrent.trans hf.current, hfunctions ▸ hf.function⟩, hdef, hblock.trans hb, ht, hrest⟩

/-- The function that is being defined has changed. -/
theorem turn {l' : Ledger} {i : Nat} {f f' : Function} (h : Agrees l m) (hf : m.functions[i]? = some f)
    (ht : Turns m m' i f') (hname : f'.name = f.name) (hsig : f'.sig = f.sig) (hdef : f'.isDefined = true)
    (hsymbols : l'.symbols = l.symbols) (hblock : m'.block = l'.block) (htracks : Tracks l' f')
    (hrest : ∀ j g, j ≠ i → m.functions[j]? = some g → g.isDefined = true → g.WellFormed) : Agrees l' m' := by
  refine ⟨hsymbols ▸ h.listed.turn hf ht hname hsig hdef, .inr ⟨i, f', ht.toFocus, hdef, hblock, htracks, ?_⟩⟩
  intro j g hj hg
  rw [ht.others j hj] at hg
  exact hrest j g hj hg

theorem define {name : String} (h : Agrees l m) (hl : l.IsComplete) (hm : m.apply (.define name) = .ok m') :
    Agrees (l.next (.define name)) m' := by
  obtain ⟨i, g, hg, rfl, hfind, hnew, hblock, ht⟩ := apply_define_eq_ok hm
  have hslots : g.slots = [] := h.listed.blank g (Array.mem_of_getElem? hg) hnew
  have hparams : g.sig.params.length = paramCount l.symbols g.name := by
    simp [paramCount, ← h.listed.sigs, ← find?_map_sig, hfind]
  refine h.turn hg ht rfl rfl rfl rfl hblock (.begin hslots hparams) fun j k hj hk hdef => ?_
  rcases h.drawn with ⟨-, hnone⟩ | ⟨i', f, hf, -, -, htracks, hrest⟩
  · rw [hnone k (Array.mem_of_getElem? hk)] at hdef
    cases hdef
  · by_cases hji : j = i'
    · subst hji
      rw [hf.function] at hk
      exact Option.some.inj hk ▸ htracks.wellFormed hl
    · exact hrest j k hji hk hdef

theorem declareFunc {name : String} {sig : Sig} (h : Agrees l m) (hm : m.apply (.declareFunc name sig) = .ok m') :
    Agrees (l.next (.declareFunc name sig)) m' := by
  obtain ⟨hlisted, hcurrent, hfunctions⟩ := h.listed.declareFunc hm
  have hblock : m'.block = m.block := by
    simp only [Module.apply, Except.ok.injEq] at hm
    split at hm <;> subst hm <;> rfl
  refine ⟨hlisted, ?_⟩
  rcases hfunctions with hsame | hpush
  · rw [hsame, hcurrent]
    refine h.drawn.imp_right ?_
    rintro ⟨i, f, hf, hdef, hb, ht, hrest⟩
    exact ⟨i, f, ⟨hcurrent.trans hf.current, hsame ▸ hf.function⟩, hdef, hblock.trans hb, { ht with }, hrest⟩
  · rw [hpush, hcurrent]
    refine h.drawn.imp ?_ ?_
    · rintro ⟨hzero, hnone⟩
      refine ⟨hzero, fun g hg => ?_⟩
      rcases Array.mem_push.1 hg with hg | rfl
      · exact hnone g hg
      · rfl
    · rintro ⟨i, f, hf, hdef, hb, ht, hrest⟩
      have hlt : i < m.functions.size := (Array.getElem?_eq_some_iff.1 hf.function).1
      have hfocus : m'.functions[i]? = some f := by
        rw [hpush, Array.getElem?_push_lt hlt, ← Array.getElem?_eq_getElem hlt]
        exact hf.function
      refine ⟨i, f, ⟨hcurrent.trans hf.current, hfocus⟩, hdef, hblock.trans hb, { ht with }, fun j g hj hg hd => ?_⟩
      rw [Array.getElem?_push] at hg
      split at hg
      · obtain rfl := Option.some.inj hg
        cases hd
      · exact hrest j g hj hg hd

/-- If a function is being defined, it is as the ledger tells. -/
theorem focus (h : Agrees l m) {g : Function} (hg : m.function? = some g) :
    ∃ i, Focus m i g ∧ g.isDefined = true ∧ m.block = l.block ∧ Tracks l g ∧
      ∀ j k, j ≠ i → m.functions[j]? = some k → k.isDefined = true → k.WellFormed := by
  rcases h.drawn with ⟨hnone, -⟩ | ⟨i, f, hf, hrest⟩
  · simp [Module.function?, hnone] at hg
  · obtain rfl := Option.some.inj (hf.function?_eq.symm.trans hg)
    exact ⟨i, hf, hrest⟩

theorem newBlock {name : String} (h : Agrees l m) (hm : m.apply (.newBlock name) = .ok m') :
    Agrees (l.next (.newBlock name)) m' := by
  cases hg : m.function? with
  | none =>
    simp only [Module.apply, hg] at hm
    cases hm
  | some g =>
    obtain ⟨i, hf, hdef, hb, ht, hrest⟩ := h.focus hg
    obtain ⟨hblock, hturn⟩ := apply_newBlock_eq_ok hm hf
    exact h.turn hf.function hturn rfl rfl hdef rfl (hblock.trans hb) (ht.newBlock name _) hrest

theorem setInsert (h : Agrees l m) (b : Nat) : Agrees (l.next (.setInsert b)) { m with block := b } := by
  refine ⟨⟨h.listed.blank, h.listed.sigs, h.listed.nodup⟩, ?_⟩
  exact h.drawn.imp_right fun ⟨i, f, hf, hdef, _, ht, hrest⟩ =>
    ⟨i, f, ⟨hf.current, hf.function⟩, hdef, rfl, ht.setInsert b, hrest⟩

theorem alloca {t : Ir.Ty} (h : Agrees l m) (hm : m.apply (.alloca t) = .ok m') : Agrees
    (l.next (.alloca t)) m' := by
  cases hg : m.function? with
  | none =>
    simp only [Module.apply, hg] at hm
    cases hm
  | some g =>
    obtain ⟨i, hf, hdef, hb, ht, hrest⟩ := h.focus hg
    obtain ⟨hblock, hturn⟩ := apply_alloca_eq_ok hm hf
    exact h.turn hf.function hturn rfl rfl hdef rfl (hblock.trans hb) (ht.alloca t) hrest

theorem instr {ins : Instr} (h : Agrees l m) (hl : l.Allows (.instr ins)) (hm : m.apply (.instr ins) = .ok m') :
    Agrees (l.next (.instr ins)) m' := by
  cases hg : m.function? with
  | none =>
    have hblock : m.block? = none := by simp [Module.block?, hg]
    simp only [Module.apply, Module.append, hblock] at hm
    cases ht : Module.resultType (m.function?.getD default) ins <;> simp only [ht] at hm <;>
      repeat' (first | cases hm | split at hm)
  | some g =>
    obtain ⟨i, hf, hdef, hb, ht, hrest⟩ := h.focus hg
    obtain ⟨t, -, hturn, hblock, -, hlt⟩ := append_eq_ok hm hf
    rw [hb] at hturn hlt
    refine h.turn hf.function hturn rfl rfl hdef rfl (hblock.trans hb) (ht.instr t hl hlt fun x hx => ?_) hrest
    exact append_isOpen hm hf (hb ▸ hx)

/-- A command that is allowed and carried out. -/
theorem next {c : Command} (h : Agrees l m) (hl : l.Allows c) (hm : m.apply c = .ok m') : Agrees (l.next c) m' := by
  cases c with
  | declareStruct s =>
    obtain rfl := Except.ok.inj hm
    exact h.congr rfl rfl rfl
  | declareFunc name sig => exact h.declareFunc hm
  | define name => exact h.define hl hm
  | newBlock name => exact h.newBlock hm
  | setInsert b =>
    obtain rfl := Except.ok.inj hm
    exact h.setInsert b
  | constant c =>
    obtain rfl := Except.ok.inj hm
    exact h.congr rfl rfl rfl
  | alloca t => exact h.alloca hm
  | instr i => exact h.instr hl hm

end Agrees

/-- The induction is on the commands. -/
theorem agrees_of_built {cs : Array Command} (hcs : Accounted cs) {m : Module} (hm : Built cs m) : Agrees
    (.of cs) m := by
  induction hcs generalizing m with
  | nil =>
    obtain rfl : ({} : Module) = m := Except.ok.inj hm
    exact ⟨⟨by simp, by simp [Module.sigs, Ledger.of], by simp [Module.sigs]⟩, .inl ⟨rfl, by simp⟩⟩
  | @push cs c _ hc ih =>
    obtain ⟨m₁, hm₁, happly⟩ := built_push.1 hm
    rw [Ledger.of_push]
    exact (ih hm₁).next hc happly

/-- Functions that are built by accounted commands are well formed, once the last one is complete. -/
theorem functions_wellFormed {cs : Array Command} (hcs : Accounted cs) (hl : (Ledger.of cs).IsComplete) {m : Module}
    (hm : Built cs m) : ∀ f ∈ m.functions, f.isDefined = true → f.WellFormed := by
  intro g hg hdef
  rcases (agrees_of_built hcs hm).drawn with ⟨-, hnone⟩ | ⟨i, f, hf, -, -, ht, hrest⟩
  · rw [hnone g hg] at hdef
    exact nomatch hdef
  · obtain ⟨j, hj⟩ := Array.mem_iff_getElem?.1 hg
    by_cases hji : j = i
    · subst hji
      rw [hf.function] at hj
      exact Option.some.inj hj ▸ ht.wellFormed hl
    · exact hrest j g hji hj hdef

end TypedScript.Lower
