import TypedScript.Lower.Objects
import TypedScript.Proofs.Machine.Arithmetic
import TypedScript.Proofs.Machine.Drop
import TypedScript.Proofs.Machine.Step

/-!
# What the helpers do

The code of the four helpers that keep counts, line by line. In each of them register one is the value the helper
is called on. The helper that takes an owner away goes on, when none is left, through tests of the tag, one for
each layout with counted fields, and releases the fields of the layout whose tag it finds. `dropPlan` says which
fields these are.

A call of a helper can be left out of a run: if the run is safe from every state that the helper may come back
with, it is safe from the call of the helper. Adding an owner raises a count by one (`safe_retain`,
`safe_fnRetain`); taking one away is a drop (`safe_release`, `safe_fnRelease`).
-/

/-! ## The code of the helpers -/

namespace TypedScript.Machine

open TypedScript.Ir TypedScript.Layout TypedScript.Lower

/-! ### Lines -/

/-- The lines of a block. -/
def Function.code (f : Function) (block : Nat) : List Line := (f.blocks.getD block default).lines.toList

/-- Results go to registers that are there. -/
def Function.HasRegisters (f : Function) : Prop := ∀ b, ∀ l ∈ f.code b, ∀ d, l.dst = some d → d < f.registers.size

/-- A register of a call. -/
def Frame.reg (fr : Frame) (r : Nat) : Value := fr.registers.getD r .invalid

namespace Frame

variable {fr : Frame}

theorem line?_eq (fr : Frame) : fr.line? = (fr.function.code fr.block)[fr.next]? := by
  simp [line?, Function.code]

theorem value?_reg {r : Nat} (h : r < fr.registers.size) : fr.value? (.reg r) = some (fr.reg r) := by
  simp [value?, reg, h]

theorem reg_of_value? {r : Nat} {v : Value} (h : fr.value? (.reg r) = some v) : fr.reg r = v := by
  have hget : fr.registers[r]? = some v := h
  rw [reg, Array.getD_eq_getD_getElem?, hget, Option.getD_some]

/-- A register that is not there seems to hold nothing. -/
theorem value?_of_reg {r : Nat} {v : Value} (h : fr.reg r = v) (hv : v ≠ .invalid) : fr.value?
    (.reg r) = some v := by
  have hlt : r < fr.registers.size := by
    by_contra hle
    exact hv (by simp [← h, reg, hle])
  rw [value?_reg hlt, h]

@[simp] theorem size_set (fr : Frame) (dst : Option Nat) (v : Value) :
    (fr.set dst v).registers.size = fr.registers.size := by
  cases dst <;> simp [set]

@[simp] theorem reg_goto (fr : Frame) (b r : Nat) : (fr.goto b).reg r = fr.reg r := rfl

@[simp] theorem reg_set_none (fr : Frame) (v : Value) (r : Nat) : (fr.set none v).reg r = fr.reg r := rfl

theorem reg_set_self {d : Nat} (v : Value) (h : d < fr.registers.size) : (fr.set (some d) v).reg d = v := by
  simp [reg, set, h]

theorem reg_set_of_ne {d r : Nat} (v : Value) (h : r ≠ d) : (fr.set (some d) v).reg r = fr.reg r := by
  have hd : d ≠ r := fun h' => h h'.symm
  simp [reg, set, Array.getElem?_setIfInBounds_ne hd]

/-- The registers of a call that begins, if its function has no slots. -/
theorem reg_enter {f : Function} (hf : f.slots = []) (vs : List Value) (d first r : Nat) :
    (enter f vs d first).reg r = vs.getD r .invalid := by
  simp only [enter, reg, hf, List.zipIdx_nil, List.foldl_nil, Array.getD_eq_getD_getElem?, Array.getElem?_append,
    Array.getElem?_replicate, List.size_toArray, List.getElem?_toArray, List.getD_eq_getElem?_getD]
  by_cases h : r < vs.length
  · simp [h]
  · rw [if_neg h, List.getElem?_eq_none (Nat.le_of_not_lt h)]
    split <;> rfl

theorem size_enter {f : Function} (hf : f.slots = []) {vs : List Value} (h : vs.length ≤ f.registers.size)
    (d first : Nat) :
    (enter f vs d first).registers.size = f.registers.size := by
  simp only [enter, hf, List.zipIdx_nil, List.foldl_nil, Array.size_append, Array.size_replicate, List.size_toArray]
  omega

end Frame

/-! ### Helpers -/

/-- A result goes to a register that is there. -/
theorem Function.HasRegisters.lt {f : Function} (hf : f.HasRegisters) {b k d : Nat} {i : Instr}
    (h : (f.code b)[k]? = some ⟨some d, i⟩) : d < f.registers.size :=
  hf b _ (List.mem_of_getElem? h) d rfl

/-- What all helpers have in common: no slots, and two parameters. -/
structure HelperFrame (f : Function) : Prop where
  isDefined : f.isDefined = true
  slots : f.slots = []
  size : 2 ≤ f.registers.size
  registers : f.HasRegisters

/-- The helper that adds an owner to an object. -/
structure RetainCode (f : Function) : Prop extends HelperFrame f where
  entry : f.code 0 = [⟨some 2, .compare .eq (.reg 1) .null⟩, ⟨none, .condBr (.reg 2) 2 1⟩]
  inc : f.code 1 = [⟨some 3, .fieldAddr headerStruct (.reg 1) countSlot⟩, ⟨some 4, .load Scalar.i32 (.reg 3)⟩,
    ⟨some 5, .binary .add (.reg 4) (.int .i32 1)⟩, ⟨none, .store (.reg 3) (.reg 5)⟩, ⟨none, .br 2⟩]
  done : f.code 2 = [⟨none, .ret none⟩]
  type : f.registers[4]? = some (Scalar.i32 : Ir.Ty)

/-- A helper for function values, which passes closures on to the helper `inner`. -/
structure FnHelperCode (inner : String) (f : Function) : Prop extends HelperFrame f where
  entry : f.code 0 = [⟨some 2, .compare .eq (.reg 1) .null⟩, ⟨none, .condBr (.reg 2) 3 1⟩]
  check : f.code 1 = [⟨some 3, .fieldAddr headerStruct (.reg 1) tagSlot⟩, ⟨some 4, .load Scalar.i32 (.reg 3)⟩,
    ⟨some 5, .compare .eq (.reg 4) (.int .i32 closureTag)⟩, ⟨none, .condBr (.reg 5) 2 3⟩]
  closure : f.code 2 = [⟨some 6, .call helperSig (.func inner) [.null, .reg 1]⟩, ⟨none, .br 3⟩]
  done : f.code 3 = [⟨none, .ret none⟩]

/-- The counted fields of a layout: whether they hold function values, and their slots. -/
def dropSlots (d : Descriptor) : List (Bool × Nat) :=
  d.countedFields.map fun f => (match f.rep with | .func _ => true | _ => false, f.slot)

/-- The counted fields of the objects with a tag. -/
def dropPlan (ds : List Descriptor) (tag : Int) : List (Bool × Nat) :=
  ((ds.find? (·.tag = tag)).map dropSlots).getD []

/-- From a line on, the fields are released one after another, and then the object is given back in block four. -/
def FieldsAt (f : Function) (b : Nat) : Nat → List (Bool × Nat) → Prop
  | k, [] => (f.code b)[k]? = some ⟨none, .br 4⟩
  | k, (isFn, slot) :: rest => ∃ s p q r, 9 ≤ p ∧ 9 ≤ q ∧ 9 ≤ r ∧
      (f.code b)[k]? = some ⟨some p, .fieldAddr s (.reg 1) slot⟩ ∧
      (f.code b)[k + 1]? = some ⟨some q, .load Scalar.ptr (.reg p)⟩ ∧
      (f.code b)[k + 2]? =
        some ⟨some r, .call helperSig (.func (if isFn then fnReleaseName else releaseName)) [.null, .reg q]⟩ ∧
      FieldsAt f b (k + 3) rest

/-- From a line on, the tag in register eight is compared with those of the layouts, and the fields of the one
that has it are released. -/
def TestsAt (f : Function) : Nat → Nat → List Descriptor → Prop
  | b, k, [] => (f.code b)[k]? = some ⟨none, .br 4⟩
  | b, k, d :: rest => ∃ r yes no, 9 ≤ r ∧
      (f.code b)[k]? = some ⟨some r, .compare .eq (.reg 8) (.int .i32 d.tag)⟩ ∧
      (f.code b)[k + 1]? = some ⟨none, .condBr (.reg r) yes no⟩ ∧
      FieldsAt f yes 0 (dropSlots d) ∧ TestsAt f no 0 rest

/-- The helper that takes an owner from an object. -/
structure ReleaseCode (hook : String) (ds : List Descriptor) (f : Function) : Prop extends HelperFrame f where
  entry : f.code 0 = [⟨some 2, .compare .eq (.reg 1) .null⟩, ⟨none, .condBr (.reg 2) 3 1⟩]
  dec : f.code 1 = [⟨some 3, .fieldAddr headerStruct (.reg 1) countSlot⟩, ⟨some 4, .load Scalar.i32 (.reg 3)⟩,
    ⟨some 5, .binary .sub (.reg 4) (.int .i32 1)⟩, ⟨none, .store (.reg 3) (.reg 5)⟩,
    ⟨some 6, .compare .le (.reg 5) (.int .i32 0)⟩, ⟨none, .condBr (.reg 6) 2 3⟩]
  drop : (f.code 2)[0]? = some ⟨some 7, .fieldAddr headerStruct (.reg 1) tagSlot⟩ ∧
    (f.code 2)[1]? = some ⟨some 8, .load Scalar.i32 (.reg 7)⟩
  tests : TestsAt f 2 2 ds
  done : f.code 3 = [⟨none, .ret none⟩]
  free : ∃ r, 9 ≤ r ∧ f.code 4 = [⟨some r, .call helperSig (.func hook) [.null, .reg 1]⟩, ⟨none, .br 3⟩]
  type : f.registers[4]? = some (Scalar.i32 : Ir.Ty)

/-- The helpers and the hooks of the host are what they are meant to be. -/
structure Runtime (c : Config) (o : Lower.Options) (ds : List Descriptor) : Prop where
  retain : ∀ f, c.module.find? retainName = some f → RetainCode f
  fnRetain : ∀ f, c.module.find? fnRetainName = some f → FnHelperCode retainName f
  fnRelease : ∀ f, c.module.find? fnReleaseName = some f → FnHelperCode releaseName f
  release : ∀ f, c.module.find? releaseName = some f → ReleaseCode o.release ds f
  hook : ∀ f, c.module.find? o.release = some f → f.isDefined = false ∧ c.hosts.lookup f.name = some .release
  allocator : ∀ f, c.module.find? o.allocate = some f → f.isDefined = false ∧ c.hosts.lookup f.name = some .allocate
  /-- Fields do not lie in the header. -/
  slots : ∀ t, ∀ p ∈ dropPlan ds t, p.2 ≠ countSlot

end TypedScript.Machine

/-! ## Calls of the helpers -/

namespace TypedScript.Machine

open TypedScript.Ir TypedScript.Layout TypedScript.Lower

/-! ### Counts are within bounds -/

/-- No count is beyond the number of executed instructions. -/
def Memory.Bounded (m : Memory) (k : Nat) : Prop := ∀ x, x < m.objects.size → (m.nth x).count.natAbs ≤ k

theorem Memory.Bounded.mono {m : Memory} {k k' : Nat} (h : m.Bounded k) (hk : k ≤ k') : m.Bounded k' :=
  fun x hx => Nat.le_trans (h x hx) hk

theorem Memory.Bounded.setCount {m : Memory} {k id : Nat} {c : Int} (h : m.Bounded k) (hc : c.natAbs ≤ k) :
    (m.setCount id c).Bounded k := by
  intro x hx
  rw [m.size_setCount] at hx
  by_cases hxid : x = id - 1
  · subst hxid
    rw [m.count_setCount hx]
    exact hc
  · rw [Memory.nth_setCount_of_ne hxid]
    exact h x hx

theorem Memory.Bounded.giveBack {m : Memory} {k : Nat} (h : m.Bounded k) (id : Nat) :
    (m.giveBack id).Bounded k := by
  intro x hx
  rw [m.size_giveBack] at hx
  rw [m.nth_giveBack]
  split
  · exact h x hx
  · exact h x hx

/-! ### Words -/

theorem wrap_i32 {z : Int} (h₁ : -(stepBound : Int) < z) (h₂ : z < stepBound) :
    (wrap (some (.scalar .i32)) (.ofInt z)).toInt = z := by
  have hb : (stepBound : Int) = 2147483648 := rfl
  rw [toInt_wrap_ofInt rfl]
  exact Int.bmod_eq_of_le (by omega) (by omega)

theorem binary_eq_ok {op : Op} {t : Option Ir.Ty} {x v : Value} {b : Int} (h : binary op t x (.int b) = .ok v) :
    ∃ a r, x = .int a ∧ intBinary op (.ofInt a) (.ofInt b) = .ok r ∧ v = .int (wrap t r).toInt := by
  cases x with
  | int a =>
    simp only [binary] at h
    cases hr : intBinary op (.ofInt a) (.ofInt b) with
    | error f => rw [hr] at h; cases h
    | ok r =>
      rw [hr] at h
      cases h
      exact ⟨a, r, rfl, hr, rfl⟩
  | invalid => cases h
  | bool _ => cases h
  | float _ => cases h
  | ptr _ => cases h

theorem compare_null_eq_ok {v w : Value} (h : compare .eq v .null = .ok w) :
    ∃ p, v = .ptr p ∧ w = .bool (decide (p = .null)) := by
  cases v with
  | ptr p =>
    cases h
    exact ⟨p, rfl, rfl⟩
  | invalid => cases h
  | bool _ => cases h
  | float _ => cases h
  | int _ => cases h

theorem compare_int_eq_ok {p : Pred} {v w : Value} {b : Int} (h : compare p v (.int b) = .ok w) :
    ∃ a, v = .int a ∧ w = .bool (holds p (Ord.compare a b)) := by
  cases v with
  | int a => cases h; exact ⟨a, rfl, rfl⟩
  | ptr _ => cases h
  | invalid => cases h
  | bool _ => cases h
  | float _ => cases h

theorem holds_eq_compare (a b : Int) : holds .eq (Ord.compare a b) = decide (a = b) := by
  simp only [holds, Ord.compare, compareOfLessAndEq]
  split
  · simp only [reduceCtorEq, decide_false]
    exact (decide_eq_false (by omega)).symm
  · split
    · rename_i h
      simp [h]
    · rename_i h
      simp [h]

theorem holds_le_compare (a b : Int) : holds .le (Ord.compare a b) = decide (a ≤ b) := by
  simp only [holds, Ord.compare, compareOfLessAndEq]
  split
  · simp only [ne_eq, reduceCtorEq, not_false_eq_true, decide_true]
    exact (decide_eq_true (by omega)).symm
  · split
    · rename_i h
      simp [h]
    · simp only [ne_eq, not_true_eq_false, decide_false]
      exact (decide_eq_false (by omega)).symm

/-- A word other than the tag is read from an object only. -/
theorem load_of_fieldAddr {M : Memory} {b a v : Value} {slot : Nat} (ha : Memory.fieldAddr b slot = .ok a)
    (hv : M.load a = .ok v) (hslot : slot ≠ tagSlot) : ∃ id, b = .ptr (.object id) ∧ a = .ptr (.field id slot) := by
  unfold Memory.fieldAddr at ha
  split at ha
  · cases ha; exact ⟨_, rfl, rfl⟩
  · cases ha
    simp only [Memory.load, if_neg hslot] at hv
    cases hv
  · cases ha
  · cases ha
  · cases ha

/-! ### Adding an owner -/

/-- The value has one owner more. -/
inductive Raise : Value → Memory → Memory → Prop
  | null (M : Memory) : Raise .null M M
  | object {M : Memory} {id : Nat} {c : Int} (hcount : M.load (.ptr (.field id countSlot)) = .ok (.int c)) :
      Raise (.ptr (.object id)) M (M.setCount id (c + 1))

/-! ### Calls of helpers -/

/-- A call of the helper `f` on the value `v` is at a line of a block. -/
structure Stands (fr : Frame) (f : Function) (b j : Nat) (v : Value) (d : Nat) : Prop where
  function : fr.function = f
  block : fr.block = b
  next : fr.next = j
  value : fr.reg 1 = v
  dst : fr.dst = d
  size : fr.registers.size = f.registers.size

namespace Stands

variable {fr : Frame} {f : Function} {b j d r : Nat} {v w : Value} {l : Line}

theorem enter {a : Value} (hf : HelperFrame f) (d first : Nat) : Stands (Frame.enter f [a, v] d first) f 0 0 v d :=
  ⟨rfl, rfl, rfl, Frame.reg_enter hf.slots _ _ _ _, rfl, 
    Frame.size_enter hf.slots (show [a, v].length ≤ _ from hf.size) d first⟩

theorem set (h : Stands fr f b j v d) (hr : r ≠ 1) : Stands (fr.set (some r) w) f b (j + 1) v d :=
  ⟨h.function, h.block, congrArg (· + 1) h.next, (Frame.reg_set_of_ne w hr.symm).trans h.value, h.dst,
    (fr.size_set _ _).trans h.size⟩

theorem skip (h : Stands fr f b j v d) : Stands (fr.set none w) f b (j + 1) v d :=
  ⟨h.function, h.block, congrArg (· + 1) h.next, h.value, h.dst, h.size⟩

theorem goto (h : Stands fr f b j v d) (b' : Nat) : Stands (fr.goto b') f b' 0 v d :=
  ⟨h.function, rfl, rfl, h.value, h.dst, h.size⟩

theorem line (h : Stands fr f b j v d) (hl : (f.code b)[j]? = some l) : fr.line? = some l := by
  rw [Frame.line?_eq, h.function, h.block, h.next, hl]

theorem line_of_eq {ls : List Line} (h : Stands fr f b j v d) (hls : f.code b = ls) (hl : ls[j]? = some l) :
    fr.line? = some l := h.line (hls ▸ hl)

/-- The register that a line has just written to. -/
theorem reg_set {i : Instr} (h : Stands fr f b j v d) (hf : f.HasRegisters)
    (hl : (f.code b)[j]? = some ⟨some r, i⟩) :
    (fr.set (some r) w).reg r = w :=
  Frame.reg_set_self w (h.size ▸ hf.lt hl)

theorem value?_set {i : Instr} (h : Stands fr f b j v d) (hf : f.HasRegisters)
    (hl : (f.code b)[j]? = some ⟨some r, i⟩) :
    (fr.set (some r) w).value? (.reg r) = some w := by
  have hlt : r < (fr.set (some r) w).registers.size := by
    rw [Frame.size_set, h.size]
    exact hf.lt hl
  rw [Frame.value?_reg hlt, h.reg_set hf hl]

/-- The argument of a helper. -/
theorem value?_param (h : Stands fr f b j v d) (hf : 2 ≤ f.registers.size) : fr.value? (.reg 1) = some v := by
  have hlt : 1 < fr.registers.size := h.size ▸ hf
  rw [Frame.value?_reg hlt, h.value]

end Stands

section

variable {c : Config} {n k d first b j : Nat} {M : Memory} {f : Function} {fr : Frame} {a v : Value}
    {caller : Frame}
  {more : List Frame}

/-- A helper ends. -/
theorem Stands.safe_ret (h : Stands fr f b j v d) (hl : (f.code b)[j]? = some ⟨none, .ret none⟩)
    (hn : ∀ m, m < n → Safe c m M (caller.set (some d) .invalid :: more) (k + 1)) :
    Safe c n M (fr :: caller :: more) k := by
  refine safe_ret_none (h.line hl) fun m hm => ?_
  rw [Returns, h.dst]
  exact hn m hm

/-- A helper starts with a test for null. -/
theorem Stands.safe_test {yes no : Nat} {rest : List Frame} (h : Stands fr f b 0 v d) (hf : f.HasRegisters)
    (hcode : f.code b = [⟨some 2, .compare .eq (.reg 1) .null⟩, ⟨none, .condBr (.reg 2) yes no⟩])
    (hnull : v = .null → ∀ fr m, m < n → Stands fr f yes 0 v d → Safe c m M (fr :: rest) (k + 2))
    (hptr : ∀ p, v = .ptr p → p ≠ .null → ∀ fr m, m < n → Stands fr f no 0 v d → Safe c m M (fr :: rest) (k + 2)) :
    Safe c n M (fr :: rest) k := by
  refine safe_compare (h.line_of_eq hcode rfl) ?_
  intro x y w hx hy hw m₁ hm₁
  have hline : (f.code b)[0]? = some ⟨some 2, .compare .eq (.reg 1) .null⟩ := by rw [hcode]; rfl
  have hset : Stands (fr.set (some 2) w) f b 1 v d := h.set (by decide)
  cases h.value.symm.trans (Frame.reg_of_value? hx)
  cases hy
  obtain ⟨p, rfl, rfl⟩ := compare_null_eq_ok hw
  refine safe_condBr (hset.line_of_eq hcode rfl) ?_
  intro t ht m₂ hm₂
  obtain rfl : decide (p = .null) = t := by
    cases (h.reg_set hf hline).symm.trans (Frame.reg_of_value? ht)
    rfl
  by_cases hp : p = .null
  · rw [if_pos (decide_eq_true hp)]
    exact hnull (by rw [hp]; rfl) _ m₂ (by omega) (hset.goto yes)
  · rw [if_neg (by simpa using hp)]
    exact hptr p rfl hp _ m₂ (by omega) (hset.goto no)

/-- The count of the object is read, changed by one and stored; register five then holds it. -/
theorem Stands.safe_count {op : Op} {delta : Int} {tail : List Line} {rest : List Frame} (h : Stands fr f b 0 v d)
    (hf : f.HasRegisters) (htype : f.registers[4]? = some (Scalar.i32 : Ir.Ty))
    (hcode : f.code b = ⟨some 3, .fieldAddr headerStruct (.reg 1) countSlot⟩ ::
    ⟨some 4, .load Scalar.i32 (.reg 3)⟩ ::
      ⟨some 5, .binary op (.reg 4) (.int .i32 1)⟩ :: ⟨none, .store (.reg 3) (.reg 5)⟩ :: tail)
    (hop : ∀ x, intBinary op (.ofInt x) (.ofInt 1) = .ok (.ofInt (x + delta))) (hdelta : delta.natAbs = 1)
    (hM : M.Bounded k) (hn : ∀ id x, v = .ptr (.object id) → M.load (.ptr (.field id countSlot)) = .ok (.int x) →
      (M.setCount id (x + delta)).Bounded (k + 1) → ∀ fr m, m < n → Stands fr f b 4 v d →
        fr.reg 5 = .int (x + delta) →
      Safe c m (M.setCount id (x + delta)) (fr :: rest) (k + 4)) :
    Safe c n M (fr :: rest) k := by
  have hl₀ : (f.code b)[0]? = some ⟨some 3, .fieldAddr headerStruct (.reg 1) countSlot⟩ := by rw [hcode]; rfl
  have hl₁ : (f.code b)[1]? = some ⟨some 4, .load Scalar.i32 (.reg 3)⟩ := by rw [hcode]; rfl
  have hl₂ : (f.code b)[2]? = some ⟨some 5, .binary op (.reg 4) (.int .i32 1)⟩ := by rw [hcode]; rfl
  have hl₃ : (f.code b)[3]? = some ⟨none, .store (.reg 3) (.reg 5)⟩ := by rw [hcode]; rfl
  -- the address
  refine safe_fieldAddr (h.line hl₀) ?_
  intro base addr hbase haddr m₁ hm₁
  cases h.value.symm.trans (Frame.reg_of_value? hbase)
  have h₁ : Stands (fr.set (some 3) addr) f b 1 v d := h.set (by decide)
  have hr₁ : (fr.set (some 3) addr).reg 3 = addr := h.reg_set hf hl₀
  -- the count
  refine safe_load (h₁.line hl₁) ?_
  intro a₁ w ha₁ hload m₂ hm₂
  cases hr₁.symm.trans (Frame.reg_of_value? ha₁)
  obtain ⟨id, rfl, rfl⟩ := load_of_fieldAddr haddr hload (by decide)
  have h₂ := h₁.set (w := w) (r := 4) (by decide)
  have hr₂ : ((fr.set (some 3) (.ptr (.field id countSlot))).set (some 4) w).reg 4 = w := h₁.reg_set hf hl₁
  -- the new count, which does not overflow
  refine safe_binary (h₂.line hl₂) ?_
  intro a₂ b₂ r ha₂ hb₂ hr m₃ hm₃
  cases hr₂.symm.trans (Frame.reg_of_value? ha₂)
  cases hb₂
  obtain ⟨x, y, rfl, hy, rfl⟩ := binary_eq_ok hr
  rw [hop x] at hy
  cases hy
  by_cases hbound : stepBound ≤ k + 3
  · exact safe_of_bound hbound
  have hx : x.natAbs ≤ k := by
    rw [← M.count_of_load hload]
    exact hM _ (Memory.load_field_eq_ok hload).1
  have htype' : f.typeOf? (.reg 4) = some (.scalar .i32) := htype
  have hwrap : (wrap (f.typeOf? (.reg 4)) (.ofInt (x + delta))).toInt = x + delta := by
    rw [htype']
    exact wrap_i32 (by omega) (by omega)
  rw [h₂.function, hwrap]
  have h₃ := h₂.set (w := .int (x + delta)) (r := 5) (by decide)
  have hr₃ := h₂.reg_set (w := .int (x + delta)) hf hl₂
  have haddr₃ : (((fr.set (some 3) (.ptr (.field id countSlot))).set (some 4) (.int x)).set (some 5)
      (.int (x + delta))).reg 3 = .ptr (.field id countSlot) := by
    rw [Frame.reg_set_of_ne _ (by decide), Frame.reg_set_of_ne _ (by decide), hr₁]
  -- the store
  refine safe_store (h₃.line hl₃) ?_
  intro a₃ v₃ ha₃ hv₃ _ m₄ hm₄
  cases haddr₃.symm.trans (Frame.reg_of_value? ha₃)
  cases hr₃.symm.trans (Frame.reg_of_value? hv₃)
  have hbounded : (M.setCount id (x + delta)).Bounded (k + 1) := (hM.mono (Nat.le_succ k)).setCount (by omega)
  exact hn id x rfl hload hbounded _ m₄ (by omega) h₃.skip hr₃

/-- The word that stands for the tag of what is pointed to: a code pointer shows zero. -/
inductive TagWord (M : Memory) : Value → Value → Prop
  | object {id : Nat} {t : Value} (h : M.load (.ptr (.field id tagSlot)) = .ok t) : TagWord M (.ptr (.object id)) t
  | code (name : String) : TagWord M (.ptr (.code name)) (.int 0)

theorem tagWord_of_load {b a t : Value} (ha : Memory.fieldAddr b tagSlot = .ok a) (ht : M.load a = .ok t) :
    TagWord M b t := by
  unfold Memory.fieldAddr at ha
  split at ha
  · cases ha
    exact .object ht
  · cases ha
    cases ht
    exact .code _
  · cases ha
  · cases ha
  · cases ha

theorem TagWord.isClosure_iff {t : Int} (h : TagWord M v (.int t)) : M.IsClosure v ↔ t = closureTag := by
  cases h with
  | object h =>
    rename_i id
    have htag : (M.object id).tag = t := Object.word_of_slot (Memory.load_field_eq_ok h).2.2.1
    constructor
    · rintro ⟨id', hid, ht⟩
      cases hid
      exact htag.symm.trans ht
    · exact fun ht => ⟨id, rfl, htag.trans ht⟩
  | code name =>
    constructor
    · rintro ⟨id', hid, -⟩
      cases hid
    · intro ht
      cases ht

/-- The tag is read. -/
theorem Stands.safe_tag {p q : Nat} {rest : List Frame} (h : Stands fr f b 0 v d) (hf : f.HasRegisters)
    (hl₀ : (f.code b)[0]? = some ⟨some p, .fieldAddr headerStruct (.reg 1) tagSlot⟩)
    (hl₁ : (f.code b)[1]? = some ⟨some q, .load Scalar.i32 (.reg p)⟩) (hp : p ≠ 1) (hq : q ≠ 1)
    (hn : ∀ t, TagWord M v t → ∀ fr m, m < n → Stands fr f b 2 v d → fr.reg q =
    t → Safe c m M (fr :: rest) (k + 2)) :
    Safe c n M (fr :: rest) k := by
  refine safe_fieldAddr (h.line hl₀) ?_
  intro base addr hbase haddr m₁ hm₁
  cases h.value.symm.trans (Frame.reg_of_value? hbase)
  have h₁ : Stands (fr.set (some p) addr) f b 1 v d := h.set hp
  refine safe_load (h₁.line hl₁) ?_
  intro a₁ t ha₁ hload m₂ hm₂
  cases (h.reg_set hf hl₀).symm.trans (Frame.reg_of_value? ha₁)
  exact hn t (tagWord_of_load haddr hload) _ m₂ (by omega) (h₁.set hq) (h₁.reg_set hf hl₁)

/-- A word in a register is compared with a constant. -/
theorem Stands.safe_equal {p q yes no : Nat} {t : Value} {z : Int} {rest : List Frame} (h : Stands fr f b j v d)
    (hf : f.HasRegisters) (hl₀ : (f.code b)[j]? = some ⟨some q, .compare .eq (.reg p) (.int .i32 z)⟩)
    (hl₁ : (f.code b)[j + 1]? = some ⟨none, .condBr (.reg q) yes no⟩) (hq : q ≠ 1) (hp : p ≠ q) (ht : fr.reg p = t)
    (hn : ∀ x, t = .int x → ∀ fr m, m < n → Stands fr f (if x = z then yes else no) 0 v d → fr.reg p = t →
      Safe c m M (fr :: rest) (k + 2)) :
    Safe c n M (fr :: rest) k := by
  refine safe_compare (h.line hl₀) ?_
  intro x y w hx hy hw m₁ hm₁
  have h₁ : Stands (fr.set (some q) w) f b (j + 1) v d := h.set hq
  cases ht.symm.trans (Frame.reg_of_value? hx)
  cases hy
  obtain ⟨x, rfl, rfl⟩ := compare_int_eq_ok hw
  rw [holds_eq_compare] at h₁ ⊢
  refine safe_condBr (h₁.line hl₁) ?_
  intro t ht' m₂ hm₂
  obtain rfl : decide (x = z) = t := by
    cases (h.reg_set hf hl₀).symm.trans (Frame.reg_of_value? ht')
    rfl
  simp only [decide_eq_true_eq]
  refine hn x rfl _ m₂ (by omega) (h₁.goto _) ?_
  rw [Frame.reg_goto, Frame.reg_set_of_ne _ hp, ht]

/-- The helper `f`, with at most `n` instructions left, changes the memory as `R` says. -/
def Helps (c : Config) (R : Value → Memory → Memory → Prop) (f : Function) (n : Nat) : Prop :=
  ∀ M k a v d first caller more, M.Bounded k →
    (∀ m k' M', m < n → k < k' → R v M M' → M'.Bounded k' → Safe c m M' (caller.set (some d) .invalid :: more) k') →
    Safe c n M (Frame.enter f [a, v] d first :: caller :: more) k

theorem helps_retain (hf : RetainCode f) : Helps c Raise f n := by
  intro M k a v d first caller more hM h
  refine (Stands.enter hf.toHelperFrame d first).safe_test hf.registers hf.entry ?_ ?_
  · rintro rfl fr m hm hfr
    refine hfr.safe_ret (by rw [hf.done]; rfl) fun m' hm' => ?_
    exact h m' _ M (by omega) (by omega) (.null M) (hM.mono (by omega))
  · rintro p - - fr m hm hfr
    have hop (x : Int) : intBinary .add (.ofInt x) (.ofInt 1) = .ok (.ofInt (x + 1)) :=
      congrArg Except.ok (Int64.ofInt_add x 1).symm
    refine hfr.safe_count hf.registers hf.type hf.inc hop rfl (hM.mono (by omega)) ?_
    rintro id x rfl hload hbounded fr' m' hm' hfr' -
    refine safe_br (hfr'.line_of_eq hf.inc rfl) fun m₁ hm₁ => ?_
    refine (hfr'.goto 2).safe_ret (by rw [hf.done]; rfl) fun m₂ hm₂ => ?_
    exact h m₂ _ _ (by omega) (by omega) (.object hload) (hbounded.mono (by omega))

/-! ### Function values -/

/-- The change `R` for closures, and none for other function values. -/
def ForClosures (R : Value → Memory → Memory → Prop) (v : Value) (M M' : Memory) : Prop :=
  M.IsClosure v ∧ R v M M' ∨ ¬ M.IsClosure v ∧ M' = M

theorem Memory.grow_of_slots (hf : f.slots = []) : M.grow f = M := by
  simp [Memory.grow, hf]

/-- The module has a helper of the name, which with less than `n` instructions left changes the memory as `R`
says. -/
def Provides (c : Config) (R : Value → Memory → Memory → Prop) (name : String) (n : Nat) : Prop :=
  ∀ g, c.module.find? name = some g → HelperFrame g ∧ ∀ m, m < n → Helps c R g m

theorem Provides.mono {R : Value → Memory → Memory → Prop} {name : String} {m : Nat} (h : Provides c R name n)
    (hm : m ≤ n) : Provides c R name m :=
  fun g hg => ⟨(h g hg).1, fun m' hm' => (h g hg).2 m' (Nat.lt_of_lt_of_le hm' hm)⟩

/-- A call of a helper. -/
theorem safe_callHelper {R : Value → Memory → Memory → Prop} {name : String} {dst : Option Nat}
    {sig : Sig} {x : Operand} {rest : List Frame} (hline : fr.line? = some ⟨dst, .call sig (.func name) [.null, x]⟩)
    (hx : fr.value? x = some v) (hg : Provides c R name n) (hM : M.Bounded k)
    (h : ∀ m k' M', m < n → k < k' → R v M M' → M'.Bounded k' →
      Safe c m M' (fr.set (some (dst.getD 0)) .invalid :: rest) k') :
    Safe c n M (fr :: rest) k := by
  refine safe_call hline ?_
  intro name' vs g hname hvs hfind m hm
  cases hname
  obtain ⟨hframe, hhelps⟩ := hg g hfind
  obtain rfl : [.null, v] = vs := by
    have hnull : fr.value? .null = some .null := rfl
    simp only [List.mapM_cons, List.mapM_nil, hnull, hx] at hvs
    cases hvs
    rfl
  refine ⟨fun _ _ => ?_, fun hd => ?_⟩
  · rw [Memory.grow_of_slots hframe.slots]
    refine hhelps m hm _ _ _ _ _ _ _ _ (hM.mono (by omega)) ?_
    intro m' k' M' hm' hk' hR hM'
    exact h m' k' M' (by omega) (by omega) hR hM'
  · rw [hframe.isDefined] at hd
    cases hd

theorem helps_fnHelper {R : Value → Memory → Memory → Prop} {inner : String} (hf : FnHelperCode inner f)
    (hg : Provides c R inner n) :
    Helps c (ForClosures R) f n := by
  intro M k a v d first caller more hM h
  have hdone : ∀ fr m k' M', m < n → k < k' → ForClosures R v M M' → M'.Bounded k' → Stands fr f 3 0 v d →
      Safe c m M' (fr :: caller :: more) k' := by
    intro fr m k' M' hm hk hR hM' hfr
    refine hfr.safe_ret (by rw [hf.done]; rfl) fun m' hm' => ?_
    exact h m' _ M' (by omega) (by omega) hR (hM'.mono (by omega))
  refine (Stands.enter hf.toHelperFrame d first).safe_test hf.registers hf.entry ?_ ?_
  · rintro rfl fr m hm hfr
    refine hdone fr m _ M hm (by omega) (.inr ⟨?_, rfl⟩) (hM.mono (by omega)) hfr
    rintro ⟨id, hid, -⟩
    cases hid
  · rintro p - - fr m hm hfr
    refine hfr.safe_tag hf.registers (by rw [hf.check]; rfl) (by rw [hf.check]; rfl) (by decide) (by decide) ?_
    intro t ht fr₁ m₁ hm₁ hfr₁ hreg₁
    refine hfr₁.safe_equal hf.registers (by rw [hf.check]; rfl) (by rw [hf.check]; rfl) (by decide)
      (by decide) hreg₁ ?_
    rintro x rfl fr₂ m₂ hm₂ hfr₂ -
    by_cases hx : x = closureTag
    · rw [if_pos hx] at hfr₂
      have hclosure : M.IsClosure v := ht.isClosure_iff.2 hx
      refine safe_callHelper (hfr₂.line_of_eq hf.closure rfl) (hfr₂.value?_param hf.size)
        (hg.mono (show m₂ ≤ n by omega)) (hM.mono (show k ≤ _ by omega)) ?_
      intro m₃ k₃ M₃ hm₃ hk₃ hR hM₃
      refine safe_br ((hfr₂.set (by decide)).line_of_eq hf.closure rfl) fun m₄ hm₄ => ?_
      refine hdone _ m₄ _ M₃ (by omega) (by omega) (.inl ⟨hclosure, hR⟩) (hM₃.mono (by omega)) ?_
      exact (hfr₂.set (by decide)).goto 3
    · rw [if_neg hx] at hfr₂
      refine hdone fr₂ m₂ _ M (by omega) (by omega) (.inr ⟨fun h => hx (ht.isClosure_iff.1 h), rfl⟩) ?_ hfr₂
      exact hM.mono (by omega)

end

/-! ### Taking an owner away -/

/-- The value has one owner less, with all that follows. -/
def DropValue (ds : List Descriptor) (v : Value) (M M' : Memory) : Prop := Drop (dropPlan ds) (.value v) M M'

section

variable {c : Config} {o : Lower.Options} {ds : List Descriptor} {n k d b j id : Nat} {M : Memory} {f : Function}
  {fr : Frame} {rest : List Frame}

/-- The fields of an object are released one after another. -/
theorem Stands.safe_fields {todo : List (Bool × Nat)} (h : Stands fr f b j (.ptr (.object id)) d)
    (hf : f.HasRegisters) (hrelease : Provides c (DropValue ds) releaseName n)
    (hfn : Provides c (ForClosures (DropValue ds)) fnReleaseName n) (hcode : FieldsAt f b j todo) (hM : M.Bounded k)
    (hn : ∀ fr m k' M', m < n → k < k' → Drop (dropPlan ds) (.fields id todo) M M' → M'.Bounded k' →
      Stands fr f 4 0 (.ptr (.object id)) d → Safe c m M' (fr :: rest) k') :
    Safe c n M (fr :: rest) k := by
  induction todo generalizing n k j M fr with
  | nil =>
    refine safe_br (h.line hcode) fun m hm => ?_
    exact hn _ m _ M hm (by omega) (.done M) (hM.mono (by omega)) (h.goto 4)
  | cons field todo ih =>
    obtain ⟨isFn, slot⟩ := field
    obtain ⟨s, p, q, r, hp, hq, hr, hl₀, hl₁, hl₂, hmore⟩ := hcode
    -- the field
    refine safe_fieldAddr (h.line hl₀) ?_
    intro base addr hbase haddr m₁ hm₁
    cases h.value.symm.trans (Frame.reg_of_value? hbase)
    cases haddr
    have h₁ := h.set (w := .ptr (.field id slot)) (r := p) (by omega)
    refine safe_load (h₁.line hl₁) ?_
    intro a₁ w ha₁ hload m₂ hm₂
    cases (h.reg_set hf hl₀).symm.trans (Frame.reg_of_value? ha₁)
    have h₂ := h₁.set (w := w) (r := q) (by omega)
    -- the release of what it holds
    have hgo : ∀ m k' M', m < m₂ → k + 2 < k' → (∀ M₂, Drop (dropPlan ds) (.fields id todo) M' M₂ →
        Drop (dropPlan ds) (.fields id ((isFn, slot) :: todo)) M M₂) → M'.Bounded k' →
        Safe c m M' (((((fr.set (some p) (.ptr (.field id slot))).set (some q) w).set (some r) .invalid)) :: rest)
          k' := by
      intro m k' M' hm hk hdrop hM'
      refine ih (h₂.set (by omega)) (hrelease.mono (by omega)) (hfn.mono (by omega)) hmore hM' ?_
      intro fr' m' k₂ M₂ hm' hk₂ hd hM₂ hfr'
      exact hn fr' m' k₂ M₂ (by omega) (by omega) (hdrop M₂ hd) hM₂ hfr'
    have hw : ((fr.set (some p) (.ptr (.field id slot))).set (some q) w).value? (.reg q) = some w :=
      h₁.value?_set hf hl₁
    cases isFn with
    | false =>
      refine safe_callHelper (h₂.line hl₂) hw (hrelease.mono (by omega)) (hM.mono (by omega)) ?_
      intro m k' M' hm hk hd hM'
      exact hgo m k' M' hm hk (fun M₂ h₂ => .next hload (fun h => by cases h) hd h₂) hM'
    | true =>
      refine safe_callHelper (h₂.line hl₂) hw (hfn.mono (by omega)) (hM.mono (by omega)) ?_
      rintro m k' M' hm hk (⟨hclosure, hd⟩ | ⟨hno, rfl⟩) hM'
      · exact hgo m k' M' hm hk (fun M₂ h₂ => .next hload (fun _ => hclosure) hd h₂) hM'
      · exact hgo m k' M' hm hk (fun M₂ h₂ => .skip hload hno h₂) hM'

/-- The tag is looked for among those of the layouts `todo`; the fields of the layout that has it are released. -/
theorem Stands.safe_tests {todo : List Descriptor} {t : Value} {tag : Int}
    (h : Stands fr f b j (.ptr (.object id)) d) (hf : f.HasRegisters) (ht : fr.reg 8 = t)
    (htag : ∀ x, t = .int x → tag = x) (hrelease : Provides c (DropValue ds) releaseName n)
    (hfn : Provides c (ForClosures (DropValue ds)) fnReleaseName n) (hcode : TestsAt f b j todo) (hM : M.Bounded k)
    (hn : ∀ fr m k' M', m < n → k < k' → Drop (dropPlan ds) (.fields id (dropPlan todo tag)) M M' → M'.Bounded k' →
      Stands fr f 4 0 (.ptr (.object id)) d → Safe c m M' (fr :: rest) k') :
    Safe c n M (fr :: rest) k := by
  induction todo generalizing n k b j fr with
  | nil =>
    refine safe_br (h.line hcode) fun m hm => ?_
    exact hn _ m _ M hm (by omega) (.done M) (hM.mono (by omega)) (h.goto 4)
  | cons layout todo ih =>
    obtain ⟨r, yes, no, hr, hl₀, hl₁, hfields, htests⟩ := hcode
    refine h.safe_equal hf hl₀ hl₁ (by omega) (by omega) ht ?_
    intro x hx fr₁ m₁ hm₁ hfr₁ ht₁
    obtain rfl := htag x hx
    by_cases heq : tag = layout.tag
    · rw [if_pos heq] at hfr₁
      have hplan : dropPlan (layout :: todo) tag = dropSlots layout := by simp [dropPlan, heq]
      refine hfr₁.safe_fields hf (hrelease.mono (by omega)) (hfn.mono (by omega)) hfields
        (hM.mono (show k ≤ _ by omega)) ?_
      intro fr₂ m₂ k₂ M₂ hm₂ hk₂ hd hM₂ hfr₂
      exact hn fr₂ m₂ k₂ M₂ (by omega) (by omega) (hplan ▸ hd) hM₂ hfr₂
    · rw [if_neg heq] at hfr₁
      have hplan : dropPlan (layout :: todo) tag = dropPlan todo tag := by
        have : ¬ layout.tag = tag := fun h => heq h.symm
        simp [dropPlan, this]
      refine ih hfr₁ ht₁ (hrelease.mono (by omega)) (hfn.mono (by omega)) htests (hM.mono (show k ≤ _ by omega)) ?_
      intro fr₂ m₂ k₂ M₂ hm₂ hk₂ hd hM₂ hfr₂
      exact hn fr₂ m₂ k₂ M₂ (by omega) (by omega) (hplan ▸ hd) hM₂ hfr₂

theorem helps_release (hR : Runtime c o ds) (hf : ReleaseCode o.release ds f)
    (hrelease : Provides c (DropValue ds) releaseName n)
    (hfn : Provides c (ForClosures (DropValue ds)) fnReleaseName n) : Helps c (DropValue ds) f n := by
  intro M k a v d first caller more hM h
  have hdone : ∀ fr m k' M', m < n → k < k' → DropValue ds v M M' → M'.Bounded k' → Stands fr f 3 0 v d →
      Safe c m M' (fr :: caller :: more) k' := by
    intro fr m k' M' hm hk hd hM' hfr
    refine hfr.safe_ret (by rw [hf.done]; rfl) fun m' hm' => ?_
    exact h m' _ M' (by omega) (by omega) hd (hM'.mono (by omega))
  refine (Stands.enter hf.toHelperFrame d first).safe_test hf.registers hf.entry ?_ ?_
  · rintro rfl fr m hm hfr
    exact hdone fr m _ M hm (by omega) (.null M) (hM.mono (by omega)) hfr
  rintro p - - fr m hm hfr
  have hop (x : Int) : intBinary .sub (.ofInt x) (.ofInt 1) = .ok (.ofInt (x + -1)) :=
    congrArg Except.ok (Int64.ofInt_sub x 1).symm
  refine hfr.safe_count hf.registers hf.type hf.dec hop rfl (hM.mono (show k ≤ _ by omega)) ?_
  rintro id x rfl hload hM₁ fr₁ m₁ hm₁ hfr₁ hreg₁
  obtain ⟨hlt, huse, -, -⟩ := Memory.load_field_eq_ok hload
  -- whether an owner is left
  refine safe_compare (hfr₁.line_of_eq hf.dec rfl) ?_
  intro x₁ y₁ w hx₁ hy₁ hw m₂ hm₂
  cases hreg₁.symm.trans (Frame.reg_of_value? hx₁)
  cases hy₁
  obtain ⟨x', hx', rfl⟩ := compare_int_eq_ok hw
  cases hx'
  rw [holds_le_compare]
  have hfr₂ := hfr₁.set (w := .bool (decide (x + -1 ≤ 0))) (r := 6) (by decide)
  refine safe_condBr (hfr₂.line_of_eq hf.dec rfl) ?_
  intro t ht m₃ hm₃
  replace ht := Frame.reg_of_value? ht
  rw [hfr₁.reg_set hf.registers (by rw [hf.dec]; rfl)] at ht
  obtain rfl : decide (x + -1 ≤ 0) = t := by cases ht; rfl
  by_cases hx : x + -1 ≤ 0
  · rw [if_pos (decide_eq_true hx)]
    have hidle : Idle (M.setCount id (x + -1)) (id - 1) :=
      ⟨by rw [M.isReleased_setCount, huse], by rw [M.count_setCount hlt]; exact hx⟩
    refine (hfr₂.goto 2).safe_tag hf.registers hf.drop.1 hf.drop.2 (by decide) (by decide) ?_
    intro t ht fr₃ m₄ hm₄ hfr₃ hreg₃
    have htag : ∀ y, t = .int y → ((M.setCount id (x + -1)).nth (id - 1)).tag = y := by
      rintro y rfl
      cases ht with
      | object h => exact Object.word_of_slot (Memory.load_field_eq_ok h).2.2.1
    refine hfr₃.safe_tests hf.registers hreg₃ htag (hrelease.mono (by omega)) (hfn.mono (by omega)) hf.tests
      (hM₁.mono (by omega)) ?_
    intro fr₄ m₅ k₅ M₅ hm₅ hk₅ hd hM₅ hfr₄
    -- the object has waited for its fields, so it can be given back
    have hcheck := checkRelease_of_idle (hd.idle hR.slots (fun _ hp => hp) hidle)
    obtain ⟨r, hr, hfree⟩ := hf.free
    refine safe_call (hfr₄.line_of_eq hfree rfl) ?_
    intro name vs g hname hvs hfind m₆ hm₆
    cases hname
    obtain ⟨hundef, hhost⟩ := hR.hook g hfind
    refine ⟨fun hdef => Bool.noConfusion (hundef.symm.trans hdef), fun _ host hlookup => ?_⟩
    rw [hhost] at hlookup
    cases hlookup
    obtain rfl : [.null, .ptr (.object id)] = vs := by
      have hnull : fr₄.value? .null = some .null := rfl
      simp only [List.mapM_cons, List.mapM_nil, hnull, hfr₄.value?_param hf.size] at hvs
      cases hvs
      rfl
    simp only [HostLeads, hcheck, reduceCtorEq, false_implies, implies_true, Except.ok.injEq, forall_eq', true_and]
    refine safe_br ((hfr₄.set (by omega)).line_of_eq hfree rfl) fun m₇ hm₇ => ?_
    refine hdone _ m₇ _ _ (by omega) (by omega) ?_ ((hM₅.giveBack id).mono (by omega))
      ((hfr₄.set (by omega)).goto 3)
    exact .free hload hx ((decays_setCount hload (by omega)).tag_eq _).symm hd
  · rw [if_neg (by simpa using hx)]
    exact hdone _ m₃ _ _ (by omega) (by omega) (.keep hload (by omega)) (hM₁.mono (by omega)) (hfr₂.goto 3)

/-! ### All helpers -/

theorem Runtime.provides_retain (hR : Runtime c o ds) : Provides c Raise retainName n :=
  fun g hg => ⟨(hR.retain g hg).toHelperFrame, fun _ _ => helps_retain (hR.retain g hg)⟩

theorem Runtime.provides_fnRetain (hR : Runtime c o ds) : Provides c (ForClosures Raise) fnRetainName n :=
  fun g hg => ⟨(hR.fnRetain g hg).toHelperFrame, fun _ _ => helps_fnHelper (hR.fnRetain g hg) hR.provides_retain⟩

theorem Runtime.provides_fnRelease (hR : Runtime c o ds) (h : Provides c (DropValue ds) releaseName n) :
    Provides c (ForClosures (DropValue ds)) fnReleaseName n :=
  fun g hg => ⟨(hR.fnRelease g hg).toHelperFrame,
    fun _ hm => helps_fnHelper (hR.fnRelease g hg) (h.mono (Nat.le_of_lt hm))⟩

theorem Runtime.provides_release (hR : Runtime c o ds) (n : Nat) : Provides c (DropValue ds) releaseName n := by
  induction n with
  | zero => exact fun g hg => ⟨(hR.release g hg).toHelperFrame, fun m hm => absurd hm (Nat.not_lt_zero m)⟩
  | succ n ih =>
    refine fun g hg => ⟨(hR.release g hg).toHelperFrame, fun m hm => ?_⟩
    rcases Nat.lt_succ_iff_lt_or_eq.1 hm with hm | rfl
    · exact (ih g hg).2 m hm
    · exact helps_release hR (hR.release g hg) ih (hR.provides_fnRelease ih)

end

end TypedScript.Machine
