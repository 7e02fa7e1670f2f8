import Mathlib.Data.List.Induction
import Mathlib.Data.List.Nodup
import TypedScript.Proofs.Machine.Build

/-!
# Well-formed functions

Control starts in the entry of a function and goes from instruction to instruction. It never runs off the code if
every block ends in its only terminator and every branch goes to a block of the function. An instruction never
reads a register that was not set if on every way from the entry to it there is the definition of the register.

A function is certified by telling, for each block, which registers are defined wherever control enters it. The
ways into a block agree on that, so the certificate is checked line by line, and says something of all ways.
-/

namespace TypedScript.Machine

open TypedScript.Ir

/-- A place in the code of a function: a line of a block. -/
structure Place where
  block : Nat
  line : Nat
  deriving DecidableEq, Repr

namespace Function

variable (f : Function)

/-- The line at a place. -/
def line? (p : Place) : Option Line := (f.code p.block)[p.line]?

/-- Control goes from one place to the next, or to the start of a block that is branched to. -/
inductive Goes : Place → Place → Prop
  | next {b i : Nat} {l : Line} : f.line? ⟨b, i⟩ = some l → l.instr.isTerminator = false → Goes ⟨b, i⟩ ⟨b, i + 1⟩
  | jump {p : Place} {t : Nat} {l : Line} : f.line? p = some l → t ∈ targets l.instr → Goes p ⟨t, 0⟩

/-- Control can come from the entry to a place by way of other places, which are listed in order. -/
inductive Comes : List Place → Place → Prop
  | entry : Comes [] ⟨0, 0⟩
  | go {ps : List Place} {p q : Place} : Comes ps p → f.Goes p q → Comes (ps ++ [p]) q

/-- The instruction at a place puts its result into the register. -/
def Sets (p : Place) (r : Nat) : Prop := ∃ l, f.line? p = some l ∧ l.dst = some r

/-- The register is a parameter, holds the address of a stack slot, or was set by an instruction on the way. -/
def IsDefinedOn (ps : List Place) (r : Nat) : Prop :=
  r < f.sig.params.length ∨ r ∈ f.slots ∨ ∃ p ∈ ps, f.Sets p r

/-- Control stays in the function, and what is read was defined on every way. -/
structure WellFormed : Prop where
  entry : 0 < f.blocks.size
  /-- A block has instructions, and the last one is its only terminator. -/
  ended : ∀ b < f.blocks.size, ∃ init last, f.code b = init ++ [last] ∧ last.instr.isTerminator = true ∧
    ∀ l ∈ init, l.instr.isTerminator = false
  targets : ∀ p l t, f.line? p = some l → t ∈ targets l.instr → t < f.blocks.size
  /-- What is read is a register of the function that has one definition, which lies on every way there. -/
  operands : ∀ p l r, f.line? p = some l → .reg r ∈ operands l.instr → r < f.registers.size ∧
    ∀ ps, f.Comes ps p → f.IsDefinedOn ps r
  single : ∀ p q r, f.Sets p r → f.Sets q r → p = q
  fresh : ∀ p r, f.Sets p r → f.sig.params.length ≤ r ∧ r ∉ f.slots

/-! ### Certificates -/

/-- The register is defined before a line, if those in `starts` are at the start of each block. -/
def Has (starts : Nat → List Nat) (b i r : Nat) : Prop := r ∈ f.slots ∨ r ∈ starts b ∨ ∃ j < i, f.Sets ⟨b, j⟩ r

/-- Wherever control enters a block, the registers in `starts` are defined, and these account for all that is
read. -/
structure Certified (starts : Nat → List Nat) : Prop where
  entry : ∀ r ∈ starts 0, r < f.sig.params.length
  uses : ∀ b i l r, f.line? ⟨b, i⟩ = some l → .reg r ∈ Machine.operands l.instr → f.Has starts b i r
  jumps : ∀ b i l t, f.line? ⟨b, i⟩ = some l → t ∈ Machine.targets l.instr → ∀ r ∈ starts t, f.Has starts b i r

variable {f}

theorem IsDefinedOn.append {ps : List Place} {r : Nat} (h : f.IsDefinedOn ps r) (p : Place) : f.IsDefinedOn
    (ps ++ [p]) r := by
  rcases h with h | h | ⟨q, hq, hset⟩
  · exact .inl h
  · exact .inr (.inl h)
  · exact .inr (.inr ⟨q, List.mem_append_left _ hq, hset⟩)

/-- What the certificate tells is defined lies on every way. The induction is on the way. -/
theorem Certified.isDefinedOn {starts : Nat → List Nat} (h : f.Certified starts) {ps : List Place} {p : Place}
    (hps : f.Comes ps p) {r : Nat} (hr : f.Has starts p.block p.line r) : f.IsDefinedOn ps r := by
  induction hps generalizing r with
  | entry =>
    rcases hr with hslot | hstart | ⟨j, hj, -⟩
    · exact .inr (.inl hslot)
    · exact .inl (h.entry r hstart)
    · exact absurd hj (Nat.not_lt_zero j)
  | @go ps p q hps hgo ih =>
    cases hgo with
    | @next b i l hline hterm =>
      rcases hr with hslot | hstart | ⟨j, hj, hset⟩
      · exact .inr (.inl hslot)
      · exact (ih (.inr (.inl hstart))).append _
      · -- the last instruction on the way may be the one that sets the register
        by_cases hji : j = i
        · subst hji
          exact .inr (.inr ⟨_, List.mem_append_right _ List.mem_cons_self, hset⟩)
        · have hlt : j < i := by
            have : j < i + 1 := hj
            omega
          exact (ih (.inr (.inr ⟨j, hlt, hset⟩))).append _
    | @jump p t l hline ht =>
      rcases hr with hslot | hstart | ⟨j, hj, -⟩
      · exact .inr (.inl hslot)
      · exact (ih (h.jumps _ _ l t hline ht r hstart)).append _
      · exact absurd hj (Nat.not_lt_zero j)

theorem Has.mono {starts : Nat → List Nat} {b i j r : Nat} (h : f.Has starts b i r) (hij : i ≤ j) :
    f.Has starts b j r := by
  rcases h with h | h | ⟨k, hk, hset⟩
  · exact .inl h
  · exact .inr (.inl h)
  · exact .inr (.inr ⟨k, Nat.lt_of_lt_of_le hk hij, hset⟩)

end Function

/-! ### What is defined -/

/-- The name of the function that a command begins. -/
def begins? : Command → Option String
  | .define name => some name
  | _ => none

/-- The names of the functions that commands begin, in order. -/
def definitions (cs : Array Command) : List String := cs.toList.filterMap begins?

theorem mem_definitions {cs : Array Command} {name : String} : name ∈ definitions cs ↔
    Command.define name ∈ cs := by
  unfold definitions
  rw [List.mem_filterMap, ← Array.mem_toList_iff]
  constructor
  · rintro ⟨c, hc, hname⟩
    cases c <;> cases hname
    exact hc
  · exact fun h => ⟨_, h, rfl⟩

theorem definitions_push (cs : Array Command) (c : Command) : definitions (cs.push c) = definitions cs ++
    (begins? c).toList := by
  unfold definitions
  rw [Array.toList_push, List.filterMap_append]
  cases h : begins? c <;> simp [h]

/-- The names of the functions, and whether they have a body. -/
def Module.outline (m : Module) : List (String × Bool) := m.functions.toList.map fun f => (f.name, f.isDefined)

theorem outline_modifyFunction {m : Module} {g : Function → Function} (hname : ∀ f, (g f).name = f.name)
    (hdef : ∀ f, (g f).isDefined = f.isDefined) : (m.modifyFunction g).outline = m.outline := by
  unfold Module.modifyFunction Module.outline
  split
  · refine List.ext_getElem? fun j => ?_
    simp only [List.getElem?_map, Array.getElem?_toList, Array.getElem?_modify]
    split
    · cases m.functions[j]? <;> simp [hname, hdef]
    · rfl
  · rfl

theorem outline_append {m m' : Module} {i : Instr} (h : m.append i = .ok m') : m'.outline = m.outline := by
  unfold Module.append at h
  cases ht : Module.resultType (m.function?.getD default) i with
  | error e =>
    simp only [ht] at h
    repeat' (first | cases h | split at h)
  | ok t =>
    cases hb : m.block? with
    | none =>
      simp only [ht, hb] at h
      repeat' (first | cases h | split at h)
    | some b =>
      simp only [ht, hb] at h
      repeat' (first | cases h | split at h)
      all_goals exact outline_modifyFunction (fun _ => rfl) fun _ => rfl

/-- A command adds a function without a body, gives one its body, or does neither. -/
theorem outline_apply {m m' : Module} {c : Command} (h : m.apply c = .ok m') :
    (begins? c = none ∧ m'.outline = m.outline) ∨
      (∃ name, begins? c = none ∧ name ∉ m.outline.map Prod.fst ∧ m'.outline = m.outline ++ [(name, false)]) ∨
      ∃ name ls rs, begins? c = some name ∧ m.outline = ls ++ (name, false) :: rs ∧ m'.outline = ls ++
        (name, true) :: rs := by
  cases c with
  | declareStruct s =>
    obtain rfl := Except.ok.inj h
    exact .inl ⟨rfl, rfl⟩
  | declareFunc name sig =>
    obtain rfl := Except.ok.inj h
    by_cases hsome : (m.find? name).isSome = true
    · exact .inl ⟨rfl, by rw [if_pos hsome]⟩
    · refine .inr (.inl ⟨name, rfl, fun hmem => hsome ?_, ?_⟩)
      · obtain ⟨p, hp, rfl⟩ := List.mem_map.1 hmem
        obtain ⟨f, hf, rfl⟩ := List.mem_map.1 hp
        exact Array.find?_isSome.2 ⟨f, Array.mem_toList_iff.1 hf, by simp⟩
      · rw [if_neg hsome]
        simp [Module.outline]
  | define name =>
    obtain ⟨i, g, hg, rfl, -, hdef, -, ht⟩ := apply_define_eq_ok h
    have hi : i < m.outline.length := by
      rw [Module.outline, List.length_map, Array.length_toList]
      exact (Array.getElem?_eq_some_iff.1 hg).1
    have hget : m.outline[i] = (g.name, false) := by
      refine Option.some.inj ((List.getElem?_eq_getElem hi).symm.trans ?_)
      simp [Module.outline, hg, hdef]
    have hset : m'.outline = m.outline.set i (g.name, true) := by
      refine List.ext_getElem? fun j => ?_
      rw [List.getElem?_set]
      by_cases hij : i = j
      · subst hij
        rw [if_pos rfl, if_pos hi]
        simp [Module.outline, ht.function, Function.begun]
      · simp [Module.outline, ht.others j (Ne.symm hij), hij]
    refine .inr (.inr ⟨g.name, m.outline.take i, m.outline.drop (i + 1), rfl, ?_, ?_⟩)
    · rw [← hget, ← List.drop_eq_getElem_cons, List.take_append_drop]
    · rw [hset, List.set_eq_take_append_cons_drop, if_pos hi]
  | newBlock name =>
    simp only [Module.apply] at h
    split at h
    · cases h
    · obtain rfl := Except.ok.inj h
      exact .inl ⟨rfl, outline_modifyFunction (fun _ => rfl) fun _ => rfl⟩
  | setInsert b =>
    obtain rfl := Except.ok.inj h
    exact .inl ⟨rfl, rfl⟩
  | constant v =>
    obtain rfl := Except.ok.inj h
    exact .inl ⟨rfl, rfl⟩
  | alloca t =>
    simp only [Module.apply] at h
    split at h
    · cases h
    · obtain rfl := Except.ok.inj h
      exact .inl ⟨rfl, outline_modifyFunction (fun _ => rfl) fun _ => rfl⟩
  | instr i => exact .inl ⟨rfl, outline_append h⟩

theorem isSome_find?_iff {m : Module} {name : String} : (m.find? name).isSome = true ↔
    name ∈ m.outline.map Prod.fst := by
  unfold Module.find? Module.outline
  rw [Array.find?_isSome, List.map_map, List.mem_map]
  constructor
  · rintro ⟨f, hf, hname⟩
    exact ⟨f, Array.mem_toList_iff.2 hf, by simpa using hname⟩
  · rintro ⟨f, hf, hname⟩
    exact ⟨f, Array.mem_toList_iff.1 hf, by simpa using hname⟩

/-- A function that was declared is there. -/
theorem exists_of_declareFunc {m : Module} {cs : Array Command} {name : String} {sig : Sig} (hm : Built cs m)
    (h : .declareFunc name sig ∈ cs) : ∃ f, m.find? name = some f := by
  rw [← Option.isSome_iff_exists, isSome_find?_iff]
  obtain ⟨l⟩ := cs
  induction l using List.reverseRecOn generalizing m with
  | nil => simp at h
  | append_singleton l c ih =>
    have hpush : (⟨l ++ [c]⟩ : Array Command) = Array.push ⟨l⟩ c := by simp
    rw [hpush] at hm
    obtain ⟨m₁, hm₁, happly⟩ := built_push.1 hm
    rcases List.mem_append.1 (Array.mem_def.1 h) with hold | hnew
    · have hold' := ih hm₁ (Array.mem_def.2 hold)
      rcases outline_apply happly with ⟨-, heq⟩ | ⟨x, -, -, heq⟩ | ⟨x, ls, rs, -, hbefore, heq⟩
      · rw [heq]
        exact hold'
      · rw [heq, List.map_append]
        exact List.mem_append_left _ hold'
      · rw [hbefore] at hold'
        rw [heq]
        simpa using hold'
    · obtain rfl := List.mem_singleton.1 hnew
      rw [← isSome_find?_iff]
      obtain rfl := Except.ok.inj happly
      split
      · assumption
      · simp [Module.find?]

/-- A module has one function of a name, which has a body if it was begun, and none was begun twice. -/
structure Records (cs : Array Command) (m : Module) : Prop where
  names : (m.outline.map Prod.fst).Nodup
  once : (definitions cs).Nodup
  mem : ∀ name, name ∈ definitions cs ↔ (name, true) ∈ m.outline

/-- The induction is on the commands. -/
theorem records_of_built {cs : Array Command} {m : Module} (h : Built cs m) : Records cs m := by
  obtain ⟨l⟩ := cs
  induction l using List.reverseRecOn generalizing m with
  | nil =>
    obtain rfl : ({} : Module) = m := Except.ok.inj h
    exact ⟨by simp [Module.outline], by simp [definitions], by simp [Module.outline, definitions]⟩
  | append_singleton l c ih =>
    have hpush : (⟨l ++ [c]⟩ : Array Command) = Array.push ⟨l⟩ c := by simp
    rw [hpush] at h ⊢
    obtain ⟨m₁, hm₁, happly⟩ := built_push.1 h
    obtain ⟨hnames, honce, hmem⟩ := ih hm₁
    have hdefs := definitions_push ⟨l⟩ c
    rcases outline_apply happly with ⟨hc, heq⟩ | ⟨name, hc, hnew, heq⟩ | ⟨name, ls, rs, hc, hold, heq⟩
    · rw [hc, Option.toList_none, List.append_nil] at hdefs
      exact ⟨heq ▸ hnames, hdefs ▸ honce, by rw [heq, hdefs]; exact hmem⟩
    · rw [hc, Option.toList_none, List.append_nil] at hdefs
      refine ⟨?_, hdefs ▸ honce, fun x => ?_⟩
      · rw [heq, List.map_append]
        exact hnames.append (List.nodup_singleton _) (by simpa using hnew)
      · rw [heq, hdefs, hmem]
        simp
    · rw [hc, Option.toList_some] at hdefs
      rw [hold] at hnames hmem
      have hother (b : Bool) : (name, b) ∉ ls ++ rs := by
        simp only [List.map_append, List.map_cons, List.nodup_middle, List.nodup_cons] at hnames
        exact fun hin => hnames.1 (List.map_append ▸ List.mem_map_of_mem hin)
      refine ⟨?_, ?_, fun x => ?_⟩
      · rw [heq, List.map_append]
        rwa [List.map_append] at hnames
      · rw [hdefs]
        refine honce.append (List.nodup_singleton _) fun x hx hx' => ?_
        obtain rfl := List.mem_singleton.1 hx'
        have hin := (hmem x).1 hx
        rw [List.mem_append, List.mem_cons] at hin
        exact hother true (List.mem_append.2 (hin.imp_right fun h => h.resolve_left nofun))
      · rw [heq, hdefs, List.mem_append, hmem, List.mem_singleton]
        simp [or_comm, or_left_comm]

/-- The functions of the module have different names, and those with a body are well formed. A function has a body
unless its name is one of those that the host provides. -/
structure Module.WellFormed (m : Module) (isProvided : String → Prop) : Prop where
  functions : ∀ f ∈ m.functions, f.isDefined = true → f.WellFormed
  nodup : (m.functions.toList.map Function.name).Nodup
  defined : ∀ f ∈ m.functions, f.isDefined = true ↔ ¬ isProvided f.name

theorem Records.nodup {cs : Array Command} {m : Module} (h : Records cs m) :
    (m.functions.toList.map Function.name).Nodup := by
  have hnames := h.names
  rwa [Module.outline, List.map_map] at hnames

/-- The functions with a body are those that were begun. -/
theorem Records.isDefined_iff {cs : Array Command} {m : Module} (h : Records cs m) {f : Function}
    (hf : f ∈ m.functions) :
    f.isDefined = true ↔ Command.define f.name ∈ cs := by
  rw [← mem_definitions, h.mem]
  constructor
  · exact fun hdef => List.mem_map.2 ⟨f, Array.mem_toList_iff.2 hf, by rw [hdef]⟩
  · intro hmem
    obtain ⟨g, hg, heq⟩ := List.mem_map.1 hmem
    obtain ⟨hname, hdef⟩ := Prod.mk.inj heq
    have hsame : g = f := List.inj_on_of_nodup_map h.nodup hg (Array.mem_toList_iff.2 hf) hname
    exact hsame ▸ hdef

end TypedScript.Machine
