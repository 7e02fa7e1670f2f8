import TypedScript.Lower.Program
import TypedScript.Proofs.Runtime.Spec

/-!
# Code that leaves counts to the helpers

Code is tame if it changes counts only through the helpers and makes objects only in one way: an object that was
allocated is given its tag and one owner at once. The registers of tame code are marked; those without a mark hold
the address of a count for the one store that follows.

* `Program.safe`: a run of tame code comes to a sound end.
-/

namespace TypedScript.Machine

open TypedScript.Ir TypedScript.Layout TypedScript.Lower

/-! ### Values -/

/-- The value gives no access to counts, neither as the address of one nor as the code of a function that is
reserved. -/
def Value.Good (o : Lower.Options) : Value → Prop
  | .ptr (.field _ slot) => slot ≠ countSlot
  | .ptr (.code name) => name ∉ reservedNames o
  | _ => True

theorem good_of_binary {o : Lower.Options} {op : Op} {t : Option Ir.Ty} {x y v : Value}
    (h : binary op t x y = .ok v) :
    v.Good o := by
  rcases number_of_binary h with ⟨z, rfl⟩ | ⟨z, rfl⟩ <;> trivial

theorem good_of_compare {o : Lower.Options} {p : Pred} {x y v : Value} (h : compare p x y = .ok v) : v.Good o := by
  obtain ⟨b, rfl⟩ := bool_of_compare h
  trivial

/-- The registers that may be used freely are marked. -/
abbrev Marks := List Bool

/-- The operand may be used freely. -/
def Clean (o : Lower.Options) (κ : Marks) : Operand → Prop
  | .reg r => κ[r]? = some true
  | .func name => name ∉ reservedNames o
  | _ => True

/-! ### Code -/

/-- An instruction that does not touch counts, or calls a helper. -/
def TameInstr (o : Lower.Options) (κ : Marks) : Instr → Prop
  | .fieldAddr _ base slot => Clean o κ base ∧ slot ≠ countSlot
  | .load _ addr => Clean o κ addr
  | .store addr value => Clean o κ addr ∧ Clean o κ value
  | .call _ callee args => (Clean o κ callee ∧ ∀ a ∈ args, Clean o κ a) ∨
      ∃ name ∈ helperNames, callee = .func name ∧ ∃ v, Clean o κ v ∧ args = [.null, v]
  | .ret (some v) => Clean o κ v
  | _ => True

/-- Lines that do not touch counts, except where an object is made. -/
inductive Tame (o : Lower.Options) (κ : Marks) : List Line → Prop
  | nil : Tame o κ []
  | cons {l : Line} {ls : List Line} (hl : TameInstr o κ l.instr) (hls : Tame o κ ls) : Tame o κ (l :: ls)
  | alloc {s : Struct} {size tag : Int} {r p q : Nat} {ls : List Line} (hp : p ≠ r) (hκ : κ[q]? = some false)
      (hls : Tame o κ ls) :
      Tame o κ (⟨some r, .call allocateSig (.func o.allocate) [.null, .int .i64 size]⟩ ::
        ⟨some p, .fieldAddr s (.reg r) tagSlot⟩ :: ⟨none, .store (.reg p) (.int .i32 tag)⟩ ::
        ⟨some q, .fieldAddr s (.reg r) countSlot⟩ :: ⟨none, .store (.reg q) (.int .i32 1)⟩ :: ls)

theorem Tame.append {o : Lower.Options} {κ : Marks} {ls ls' : List Line} (h : Tame o κ ls) (h' : Tame o κ ls') :
    Tame o κ (ls ++ ls') := by
  induction h with
  | nil => exact h'
  | cons hl _ ih => exact .cons hl ih
  | alloc hp hκ _ ih => exact .alloc hp hκ ih

/-- Marks stay. -/
theorem Marks.getElem?_of_prefix {κ κ' : Marks} (hκ : κ <+: κ') {r : Nat} {b : Bool} (h : κ[r]? = some b) :
    κ'[r]? = some b := by
  obtain ⟨t, rfl⟩ := hκ
  rw [List.getElem?_append_left (List.getElem?_eq_some_iff.1 h).1, h]

theorem Clean.mono {o : Lower.Options} {κ κ' : Marks} (hκ : κ <+: κ') {x : Operand} (h : Clean o κ x) :
    Clean o κ' x := by
  cases x with
  | reg r => exact Marks.getElem?_of_prefix hκ h
  | _ => exact h

theorem TameInstr.mono {o : Lower.Options} {κ κ' : Marks} (hκ : κ <+: κ') {i : Instr} (h : TameInstr o κ i) :
    TameInstr o κ' i := by
  cases i with
  | fieldAddr s base slot => exact ⟨h.1.mono hκ, h.2⟩
  | load t addr => exact Clean.mono hκ h
  | store addr value => exact ⟨h.1.mono hκ, h.2.mono hκ⟩
  | call sig callee args =>
    rcases h with ⟨hcallee, hargs⟩ | ⟨name, hname, hcallee, v, hv, hargs⟩
    · exact .inl ⟨hcallee.mono hκ, fun a ha => (hargs a ha).mono hκ⟩
    · exact .inr ⟨name, hname, hcallee, v, hv.mono hκ, hargs⟩
  | ret value =>
    cases value with
    | none => trivial
    | some v => exact Clean.mono hκ h
  | _ => trivial

theorem Tame.mono {o : Lower.Options} {κ κ' : Marks} (hκ : κ <+: κ') {ls : List Line} (h : Tame o κ ls) :
    Tame o κ' ls := by
  induction h with
  | nil => exact .nil
  | cons hl _ ih => exact .cons (hl.mono hκ) ih
  | alloc hp hmark _ ih => exact .alloc hp (Marks.getElem?_of_prefix hκ hmark) ih

/-- All blocks of the function are tame. -/
def TameFunction (o : Lower.Options) (κ : Marks) (f : Function) : Prop := ∀ b, Tame o κ (f.code b)

/-- The functions that are run: the helpers, the hooks of the host, printers, and tame functions. -/
structure Program (c : Config) (o : Lower.Options) (ds : List Descriptor) : Prop extends Runtime c o ds where
  tame : ∀ name f, c.module.find? name = some f → name ∉ reservedNames o → f.isDefined = true → ∃ κ,
    TameFunction o κ f
  printer : ∀ name f, c.module.find? name = some f → name ∉ reservedNames o → f.isDefined = false →
    ∀ host, c.hosts.lookup f.name = some host → host = .print
  entry : ∀ f, c.module.find? o.entry = some f → f.isDefined = true ∧ ∃ κ, TameFunction o κ f

/-! ### Memory -/

/-- The memory with a new object that has a tag and one owner. -/
def Memory.make (m : Memory) (size tag : Int) : Memory :=
  ((m.addObject size).put (.ptr (.field (m.allocs + 1) tagSlot)) (.int tag)).put
    (.ptr (.field (m.allocs + 1) countSlot)) (.int 1)

theorem Memory.size_make (m : Memory) (size tag : Int) : (m.make size tag).objects.size = m.objects.size + 1 := by
  simp [make]

theorem Memory.nth_make (m : Memory) (size tag : Int) (x : Nat) :
    (m.make size tag).nth x =
      if x = m.objects.size then (({ size } : Object).store tagSlot (.int tag)).store countSlot
        (.int 1) else m.nth x := by
  simp only [make, nth_put_field, nth_addObject, size_put, size_addObject, allocs]
  by_cases hx : x = m.objects.size <;> simp [hx]

theorem Memory.released_make (m : Memory) (size tag : Int) : (m.make size tag).released = m.released := by
  rw [make, released_put, released_put, released_addObject]

/-- What holds of memory whenever tame code is at work, after `k` instructions. -/
structure Tidy (o : Lower.Options) (M : Memory) (k : Nat) : Prop where
  settled : SettledOutside M fun _ => False
  bounded : M.Bounded k
  cells : ∀ v ∈ M.cells, v.Good o
  slots : ∀ x j, ((M.nth x).slot j).Good o

namespace Tidy

variable {o : Lower.Options} {M M' : Memory} {k k' : Nat} {a v : Value}

theorem mono (h : Tidy o M k) (hk : k ≤ k') : Tidy o M k' := { h with bounded := h.bounded.mono hk }

theorem load (h : Tidy o M k) (hv : M.load a = .ok v) : v.Good o := by
  unfold Memory.load at hv
  split at hv
  · cases hv
  · rename_i cell
    split at hv
    · cases hv
    · rename_i w hw
      cases hv
      rw [Array.getD_eq_getD_getElem?]
      cases hc : M.cells[cell]? with
      | none => trivial
      | some u => exact h.cells u (Array.mem_of_getElem? hc)
  · exact (Memory.load_field_eq_ok hv).2.2.1 ▸ h.slots _ _
  · split at hv
    · cases hv; trivial
    · cases hv
  · cases hv
  · cases hv

/-- A store to a field. -/
theorem put_field {id slot : Nat} (h : Tidy o M k) (ha : slot ≠ countSlot) (hv : v.Good o) :
    Tidy o (M.put (.ptr (.field id slot)) v) k := by
  have hcount : ∀ x, ((M.put (.ptr (.field id slot)) v).nth x).count = (M.nth x).count := by
    intro x
    rw [M.nth_put_field]
    split
    · exact Object.word_store_of_ne (Ne.symm ha)
    · rfl
  have hreleased : ∀ x, ((M.put (.ptr (.field id slot)) v).nth x).isReleased = (M.nth x).isReleased := by
    intro x
    rw [M.nth_put_field]
    split <;> rfl
  refine ⟨⟨fun x hx hD => ?_, ?_⟩, fun x hx => ?_, h.cells, fun x j => ?_⟩
  · rw [hcount, hreleased]
    exact h.settled.released_iff x (by simpa using hx) hD
  · exact h.settled.releases_eq.trans (M.released_put _ _).symm
  · rw [hcount]
    exact h.bounded x (by simpa using hx)
  · rw [M.nth_put_field]
    split
    · rw [Object.slot_store]
      split
      · exact hv
      · exact h.slots x j
    · exact h.slots x j

/-- A store that does not go to a count. -/
theorem put (h : Tidy o M k) (ha : a.Good o) (hv : v.Good o) : Tidy o (M.put a v) k := by
  cases a with
  | ptr p =>
    cases p with
    | field id slot => exact h.put_field ha hv
    | stack cell =>
      refine ⟨⟨h.settled.released_iff, h.settled.releases_eq⟩, h.bounded, fun w hw => ?_, h.slots⟩
      rcases Array.mem_or_eq_of_mem_setIfInBounds hw with hw | rfl
      · exact h.cells w hw
      · exact hv
    | _ => exact h
  | _ => exact h

/-- New cells hold nothing. -/
theorem grow (h : Tidy o M k) (f : Function) : Tidy o (M.grow f) k := by
  refine ⟨⟨h.settled.released_iff, h.settled.releases_eq⟩, h.bounded, fun w hw => ?_, h.slots⟩
  rcases Array.mem_append.1 hw with hw | hw
  · exact h.cells w hw
  · rw [(Array.mem_replicate.1 hw).2]
    trivial

theorem slots_setCount {id : Nat} {z : Int} (h : Tidy o M k) (x j : Nat) :
    (((M.setCount id z).nth x).slot j).Good o := by
  rw [M.nth_setCount]
  split
  · rw [Object.slot_store]
    split
    · trivial
    · exact h.slots x j
  · exact h.slots x j

/-- One more owner. -/
theorem raise (h : Tidy o M k) (hr : Raise v M M') (hM' : M'.Bounded k') : Tidy o M' k' := by
  cases hr with
  | null => exact { h with bounded := hM' }
  | @object _ id z hload =>
    obtain ⟨hlt, huse, -, -⟩ := Memory.load_field_eq_ok hload
    refine ⟨(h.settled.setCount id).include fun x hx _ hor => ?_, hM', h.cells, h.slots_setCount⟩
    obtain rfl := hor.resolve_right not_false
    have hpos := h.settled.released_iff _ hlt (fun h => h)
    rw [huse, M.count_of_load hload] at hpos
    rw [M.isReleased_setCount, huse, M.count_setCount hlt]
    simp only [Bool.false_eq_true, false_iff] at hpos ⊢
    omega

theorem slots_decays (h : Tidy o M k) (hd : Decays M M') (x j : Nat) : ((M'.nth x).slot j).Good o := by
  by_cases hj : j = countSlot
  · subst hj
    rcases hd.count_slot x with hs | ⟨z, hs⟩
    · rw [hs]
      exact h.slots x countSlot
    · rw [hs]
      trivial
  · rw [hd.slot_eq x j hj]
    exact h.slots x j

/-- One owner less, with all that follows. -/
theorem drop {ds : List Descriptor} (hplan : ∀ t, ∀ p ∈ dropPlan ds t, p.2 ≠ countSlot) (h : Tidy o M k)
    (hd : DropValue ds v M M') (hM' : M'.Bounded k') : Tidy o M' k' := by
  have hdec := Drop.decays hd
  exact ⟨Drop.settled hplan hd h.settled, hM', hdec.cells_eq ▸ h.cells, h.slots_decays hdec⟩

/-- A new object with one owner. -/
theorem make {size tag : Int} (h : Tidy o M k) : Tidy o (M.make size tag) (k + 1) := by
  have hlt : ∀ {x}, x < (M.make size tag).objects.size → x ≠ M.objects.size → x < M.objects.size := by
    intro x hx hne
    rw [M.size_make] at hx
    omega
  refine ⟨⟨fun x hx hD => ?_, ?_⟩, fun x hx => ?_, h.cells, fun x j => ?_⟩
  · by_cases hxn : x = M.objects.size
    · rw [M.nth_make, if_pos hxn]
      refine ⟨fun h => Bool.noConfusion h, fun h => ?_⟩
      rw [Object.count, Object.word_store_self] at h
      omega
    · rw [M.nth_make, if_neg hxn]
      exact h.settled.released_iff x (hlt hx hxn) hD
  · exact h.settled.releases_eq.trans (M.released_make size tag).symm
  · by_cases hxn : x = M.objects.size
    · rw [M.nth_make, if_pos hxn, Object.count, Object.word_store_self]
      exact Nat.le_add_left 1 k
    · rw [M.nth_make, if_neg hxn]
      exact Nat.le_succ_of_le (h.bounded x (hlt hx hxn))
  · rw [M.nth_make]
    split
    · rw [Object.slot_store, Object.slot_store]
      split
      · trivial
      · split
        · trivial
        · simp [Object.slot, Value.Good]
    · exact h.slots x j

end Tidy

end TypedScript.Machine
