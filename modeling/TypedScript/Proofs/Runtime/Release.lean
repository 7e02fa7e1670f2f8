import TypedScript.Proofs.Machine.Build
import TypedScript.Proofs.Machine.Reaches
import TypedScript.Proofs.Runtime.Spec

/-!
# The helpers carry out drops

The converse of what was shown of the helpers in safe runs: where there is a drop in which nothing fails, the
helper that takes an owner away carries it out, with the same record, and returns. The induction is on the drop.
-/

namespace TypedScript.Machine

open TypedScript.Ir TypedScript.Layout TypedScript.Lower

/-! ### Blocks that can be entered -/

section

variable {f : Function} {b k : Nat} {l : Line}

theorem Function.EndsOnce.enters (hf : f.EndsOnce) (h : (f.code b)[k]? = some l)
    (hl : l.instr.isTerminator = true) :
    f.Enters b := by
  have hlast : (f.code b).getLast? = some l := by
    rw [List.getLast?_eq_getElem?, ← hf b k l h hl, Nat.add_sub_cancel, h]
  unfold Function.code at hlast
  rw [Array.getLast?_toList] at hlast
  unfold Function.Enters Block.isEnded
  rw [hlast]
  exact hl

theorem FieldsAt.enters (hf : f.EndsOnce) {todo : List (Bool × Nat)} (h : FieldsAt f b k todo) : f.Enters b := by
  induction todo generalizing k with
  | nil => exact hf.enters h rfl
  | cons p todo ih =>
    obtain ⟨_, _, _, _, _, _, _, _, _, _, hmore⟩ := h
    exact ih hmore

theorem TestsAt.enters (hf : f.EndsOnce) {ds : List Descriptor} (h : TestsAt f b k ds) : f.Enters b := by
  cases ds with
  | nil => exact hf.enters h rfl
  | cons d ds =>
    obtain ⟨_, _, _, _, _, hbranch, _, _⟩ := h
    exact hf.enters hbranch rfl

end

/-! ### Parts of helpers -/

section

variable {c : Config} {M M' : Memory} {f : Function} {fr caller : Frame} {F more : List Frame}
    {b j d id : Nat} {v : Value}
  {log : List Deed}

theorem Stands.reaches_ret (h : Stands fr f b j v d) (hl : (f.code b)[j]? = some ⟨none, .ret none⟩) :
    Reaches c M (fr :: caller :: more) [] M (caller.set (some d) .invalid :: more) :=
  Machine.reaches_ret (h.line hl) (h.dst ▸ .refl M _)

/-- The test for null at the start of a helper. -/
theorem Stands.reaches_test {p : Ptr} {yes no : Nat} (h : Stands fr f b 0 (.ptr p) d) (hf : f.HasRegisters)
    (hcode : f.code b = [⟨some 2, .compare .eq (.reg 1) .null⟩, ⟨none, .condBr (.reg 2) yes no⟩])
    (henters : f.Enters (if p = .null then yes else no)) :
    ∃ fr', Stands fr' f (if p = .null then yes else no) 0 (.ptr p) d ∧ Reaches c M (fr :: F) [] M (fr' :: F) := by
  have hl₀ : (f.code b)[0]? = some ⟨some 2, .compare .eq (.reg 1) .null⟩ := by rw [hcode]; rfl
  have h₁ := h.set (w := .bool (decide (p = .null))) (r := 2) (by decide)
  have hcompare : compare .eq (.ptr p) .null = .ok (.bool (decide (p = .null))) := rfl
  have hblock : (if decide (p = .null) = true then yes else no) = if p = .null then yes else no := by simp
  refine ⟨_, h₁.goto _, ?_⟩
  refine reaches_compare (h.line hl₀) (Frame.value?_of_reg h.value (by simp)) rfl hcompare ?_
  rw [← hblock]
  refine reaches_condBr (h₁.line_of_eq hcode rfl) ?_ ?_ (.refl M _)
  · exact h.value?_set hf hl₀
  · rw [hblock, h₁.function]
    exact henters

/-- The count of the object is lowered; register five then holds it. -/
theorem Stands.reaches_count {z : Int} {tail : List Line} (h : Stands fr f b 0 (.ptr (.object id)) d)
    (hf : f.HasRegisters) (htype : f.registers[4]? = some (Scalar.i32 : Ir.Ty))
    (hcode : f.code b = ⟨some 3, .fieldAddr headerStruct (.reg 1) countSlot⟩ ::
    ⟨some 4, .load Scalar.i32 (.reg 3)⟩ ::
      ⟨some 5, .binary .sub (.reg 4) (.int .i32 1)⟩ :: ⟨none, .store (.reg 3) (.reg 5)⟩ :: tail)
    (hcount : M.load (.ptr (.field id countSlot)) = .ok (.int z)) (hz : 0 < z) (hbound : z < 2 ^ 31) :
    ∃ fr', Stands fr' f b 4 (.ptr (.object id)) d ∧ fr'.reg 5 = .int (z - 1) ∧
      Reaches c M (fr :: F) [.lower (id - 1)] (M.setCount id (z - 1)) (fr' :: F) := by
  have hl₀ : (f.code b)[0]? = some ⟨some 3, .fieldAddr headerStruct (.reg 1) countSlot⟩ := by rw [hcode]; rfl
  have hl₁ : (f.code b)[1]? = some ⟨some 4, .load Scalar.i32 (.reg 3)⟩ := by rw [hcode]; rfl
  have hl₂ : (f.code b)[2]? = some ⟨some 5, .binary .sub (.reg 4) (.int .i32 1)⟩ := by rw [hcode]; rfl
  have hl₃ : (f.code b)[3]? = some ⟨none, .store (.reg 3) (.reg 5)⟩ := by rw [hcode]; rfl
  have h₁ := h.set (w := .ptr (.field id countSlot)) (r := 3) (by decide)
  have h₂ := h₁.set (w := .int z) (r := 4) (by decide)
  have h₃ := h₂.set (w := .int (z - 1)) (r := 5) (by decide)
  have hr₁ : (fr.set (some 3) (.ptr (.field id countSlot))).reg 3 = .ptr (.field id countSlot) := h.reg_set hf hl₀
  have hr₂ : ((fr.set (some 3) (.ptr (.field id countSlot))).set (some 4) (.int z)).reg 4 = .int z :=
    h₁.reg_set hf hl₁
  have hr₃ := h₂.reg_set (w := .int (z - 1)) hf hl₂
  have haddr : (((fr.set (some 3) (.ptr (.field id countSlot))).set (some 4) (.int z)).set (some 5)
      (.int (z - 1))).reg 3 = .ptr (.field id countSlot) := by
    rw [Frame.reg_set_of_ne _ (by decide), Frame.reg_set_of_ne _ (by decide), hr₁]
  have htype' : f.typeOf? (.reg 4) = some (.scalar .i32) := htype
  have hsub : binary .sub (f.typeOf? (.reg 4)) (.int z) (.int 1) = .ok (.int (z - 1)) := by
    have hstep : (stepBound : Int) = 2 ^ 31 := rfl
    have hbinary : binary .sub (f.typeOf? (.reg 4)) (.int z) (.int 1) =
        .ok (.int (wrap (f.typeOf? (.reg 4)) (.ofInt z - .ofInt 1)).toInt) := rfl
    rw [hbinary, htype', ← Int64.ofInt_sub, wrap_i32 (by omega) (by omega)]
  refine ⟨_, h₃.skip (w := .invalid), hr₃, ?_⟩
  refine reaches_fieldAddr (h.line hl₀) (Frame.value?_of_reg h.value (by simp)) rfl ?_
  refine reaches_load (h₁.line hl₁) (h.value?_set hf hl₀) hcount ?_
  refine reaches_binary (h₂.line hl₂) (h₁.value?_set hf hl₁) rfl (h₂.function ▸ hsub) ?_
  have haddr' := Frame.value?_of_reg haddr (by simp)
  exact reaches_lower (h₃.line hl₃) haddr' (h₂.value?_set hf hl₂) hcount (.refl _ _)

/-- The tag is read. -/
theorem Stands.reaches_tag {p q : Nat} {a t : Value} (h : Stands fr f b 0 v d) (hf : f.HasRegisters)
    (hl₀ : (f.code b)[0]? = some ⟨some p, .fieldAddr headerStruct (.reg 1) tagSlot⟩)
    (hl₁ : (f.code b)[1]? = some ⟨some q, .load Scalar.i32 (.reg p)⟩) (hp : p ≠ 1) (hq : q ≠ 1)
    (ha : Memory.fieldAddr v tagSlot = .ok a) (ht : M.load a = .ok t) :
    ∃ fr', Stands fr' f b 2 v d ∧ fr'.reg q = t ∧ Reaches c M (fr :: F) [] M (fr' :: F) := by
  have h₁ := h.set (w := a) (r := p) hp
  refine ⟨_, h₁.set (w := t) hq, h₁.reg_set hf hl₁, ?_⟩
  have hv : v ≠ .invalid := by
    rintro rfl
    cases ha
  refine reaches_fieldAddr (h.line hl₀) (Frame.value?_of_reg h.value hv) ha ?_
  exact reaches_load (h₁.line hl₁) (h.value?_set hf hl₀) ht (.refl M _)

/-- A word in a register is compared with a constant. -/
theorem Stands.reaches_compare {op : Pred} {p q yes no : Nat} {x z : Int} (h : Stands fr f b j v d)
    (hf : f.HasRegisters) (hl₀ : (f.code b)[j]? = some ⟨some q, .compare op (.reg p) (.int .i32 z)⟩)
    (hl₁ : (f.code b)[j + 1]? = some ⟨none, .condBr (.reg q) yes no⟩) (hq : q ≠ 1) (hp : p ≠ q)
    (hx : fr.reg p = .int x) (henters : f.Enters (if holds op (Ord.compare x z) then yes else no)) :
    ∃ fr', Stands fr' f (if holds op (Ord.compare x z) then yes else no) 0 v d ∧ fr'.reg p = .int x ∧
      Reaches c M (fr :: F) [] M (fr' :: F) := by
  have h₁ := h.set (w := .bool (holds op (Ord.compare x z))) (r := q) hq
  refine ⟨_, h₁.goto _, ?_, ?_⟩
  · rw [Frame.reg_goto, Frame.reg_set_of_ne _ hp, hx]
  · refine Machine.reaches_compare (h.line hl₀) (Frame.value?_of_reg hx (by simp)) rfl rfl ?_
    exact reaches_condBr (h₁.line hl₁) (h.value?_set hf hl₀) (h₁.function ▸ henters) (.refl M _)

/-! ### Calls -/

/-- A call of the helper on the value returns, and changes the memory as the record tells. -/
def Delivers (c : Config) (f : Function) (v : Value) (M : Memory) (log : List Deed) (M' : Memory) : Prop :=
  ∀ a d first caller more, Reaches c M (Frame.enter f [a, v] d first :: caller :: more) log M'
    (caller.set (some d) .invalid :: more)

/-- The module has the helper under the name, and it can be called. -/
structure Serves (c : Config) (name : String) (f : Function) : Prop extends HelperFrame f where
  find : c.module.find? name = some f
  params : f.sig.params.length = 2
  ends : f.EndsOnce
  enters : f.Enters 0

/-- A call of a helper. -/
theorem reaches_callHelper {name : String} {dst : Option Nat} {sig : Sig} {x : Operand} (hf : Serves c name f)
    (hline : fr.line? = some ⟨dst, .call sig (.func name) [.null, x]⟩) (hx : fr.value? x = some v)
    (h : Delivers c f v M log M') : Reaches c M (fr :: F) log M' (fr.set (some (dst.getD 0)) .invalid :: F) := by
  have hvs : [Operand.null, x].mapM fr.value? = some [.null, v] := by
    have hnull : fr.value? .null = some .null := rfl
    simp [List.mapM_cons, hnull, hx]
  exact reaches_call hline rfl hvs hf.find hf.isDefined hf.slots (by rw [hf.params]; rfl) hf.enters (h _ _ _ _ _)

variable {g : Function} {inner : String}

/-- What holds no closure is left alone. -/
theorem delivers_fnHelper_of_plain (hf : FnHelperCode inner f) (hends : f.EndsOnce)
    (hv : v = .null ∨ ∃ name, v = .ptr (.code name)) : Delivers c f v M [] M := by
  intro a d first caller more
  have hdone : (f.code 3)[0]? = some ⟨none, .ret none⟩ := by rw [hf.done]; rfl
  have hstart := Stands.enter (a := a) (v := v) hf.toHelperFrame d first
  rcases hv with rfl | ⟨name, rfl⟩
  · obtain ⟨fr₁, h₁, hr₁⟩ := hstart.reaches_test hf.registers hf.entry (hends.enters hdone rfl)
    exact hr₁.trans (h₁.reaches_ret hdone)
  · obtain ⟨fr₁, h₁, hr₁⟩ := hstart.reaches_test hf.registers hf.entry
      (hends.enters (b := 1) (k := 3) (by rw [hf.check]; rfl) rfl)
    obtain ⟨fr₂, h₂, ht₂, hr₂⟩ := h₁.reaches_tag hf.registers (by rw [if_neg (by simp), hf.check]; rfl)
      (by rw [if_neg (by simp), hf.check]; rfl) (by decide) (by decide) rfl rfl
    obtain ⟨fr₃, h₃, -, hr₃⟩ := h₂.reaches_compare hf.registers (by rw [if_neg (by simp), hf.check]; rfl)
      (by rw [if_neg (by simp), hf.check]; rfl) (by decide) (by decide) ht₂ (hends.enters hdone rfl)
    exact hr₁.trans (hr₂.trans (hr₃.trans (h₃.reaches_ret hdone)))

/-- Closures are passed on. -/
theorem delivers_fnHelper_of_closure (hf : FnHelperCode inner f) (hends : f.EndsOnce) (hg : Serves c inner g)
    (htag : M.load (.ptr (.field id tagSlot)) = .ok (.int closureTag))
    (h : Delivers c g (.ptr (.object id)) M log M') :
    Delivers c f (.ptr (.object id)) M log M' := by
  intro a d first caller more
  have hdone : (f.code 3)[0]? = some ⟨none, .ret none⟩ := by rw [hf.done]; rfl
  have hclosure : (f.code 2)[0]? = some ⟨some 6, .call helperSig (.func inner) [.null, .reg 1]⟩ := by
    rw [hf.closure]; rfl
  have hback : (f.code 2)[1]? = some ⟨none, .br 3⟩ := by rw [hf.closure]; rfl
  have hstart := Stands.enter (a := a) (v := .ptr (.object id)) hf.toHelperFrame d first
  obtain ⟨fr₁, h₁, hr₁⟩ := hstart.reaches_test hf.registers hf.entry
    (hends.enters (b := 1) (k := 3) (by rw [hf.check]; rfl) rfl)
  obtain ⟨fr₂, h₂, ht₂, hr₂⟩ := h₁.reaches_tag hf.registers (by rw [if_neg (by simp), hf.check]; rfl)
    (by rw [if_neg (by simp), hf.check]; rfl) (by decide) (by decide) rfl htag
  obtain ⟨fr₃, h₃, -, hr₃⟩ := h₂.reaches_compare hf.registers (by rw [if_neg (by simp), hf.check]; rfl)
    (by rw [if_neg (by simp), hf.check]; rfl) (by decide) (by decide) ht₂ (hends.enters hback rfl)
  have hr₄ := reaches_callHelper (F := caller :: more) hg (h₃.line hclosure) (h₃.value?_param hf.size) h
  have h₄ := h₃.set (w := .invalid) (r := 6) (by decide)
  have hr₅ : Reaches c M' (_ :: caller :: more) [] M' (caller.set (some d) .invalid :: more) :=
    reaches_br (h₄.line hback) (h₄.function ▸ hends.enters hdone rfl) ((h₄.goto 3).reaches_ret hdone)
  have hend := hr₄.trans hr₅
  rw [List.append_nil] at hend
  exact hr₁.trans (hr₂.trans (hr₃.trans hend))

/-! ### Taking an owner away -/

/-- The tag in register eight is looked for among those of the layouts; the fields of the one that has it come
next. -/
theorem Stands.reaches_tests {todo : List Descriptor} {t : Int} (h : Stands fr f b j v d) (hf : f.HasRegisters)
    (hends : f.EndsOnce) (ht : fr.reg 8 = .int t) (hcode : TestsAt f b j todo) :
    ∃ fr' b' j', Stands fr' f b' j' v d ∧ FieldsAt f b' j' (dropPlan todo t) ∧
      Reaches c M (fr :: F) [] M (fr' :: F) := by
  induction todo generalizing fr b j with
  | nil => exact ⟨fr, b, j, h, hcode, .refl M _⟩
  | cons layout todo ih =>
    obtain ⟨r, yes, no, hr, hl₀, hl₁, hfields, htests⟩ := hcode
    have henters : f.Enters (if holds .eq (Ord.compare t layout.tag) then yes else no) := by
      split
      · exact hfields.enters hends
      · exact htests.enters hends
    obtain ⟨fr₁, h₁, ht₁, hr₁⟩ :=
      h.reaches_compare (c := c) (M := M) (F := F) hf hl₀ hl₁ (by omega) (by omega) ht henters
    simp only [holds_eq_compare, decide_eq_true_eq] at h₁
    by_cases heq : t = layout.tag
    · rw [if_pos heq] at h₁
      have hplan : dropPlan (layout :: todo) t = dropSlots layout := by simp [dropPlan, heq]
      exact ⟨fr₁, yes, 0, h₁, hplan ▸ hfields, hr₁⟩
    · rw [if_neg heq] at h₁
      have hplan : dropPlan (layout :: todo) t = dropPlan todo t := by
        have hne : ¬ layout.tag = t := fun h => heq h.symm
        simp [dropPlan, hne]
      obtain ⟨fr₂, b₂, j₂, h₂, hfields₂, hr₂⟩ := ih h₁ ht₁ htests
      exact ⟨fr₂, b₂, j₂, h₂, hplan ▸ hfields₂, hr₁.trans hr₂⟩

/-- The module has the two helpers that take owners away, and the host takes back objects. -/
structure CanRelease (c : Config) (hook : String) (ds : List Descriptor) (f g : Function) : Prop where
  release : ReleaseCode hook ds f
  serves : Serves c releaseName f
  fnRelease : FnHelperCode releaseName g
  fnServes : Serves c fnReleaseName g
  host : ∃ k, c.module.find? hook = some k ∧ k.isDefined = false ∧ c.hosts.lookup k.name = some .release

variable {hook : String} {ds : List Descriptor}

/-- A field of an object is loaded and released. -/
theorem Stands.reaches_field {isFn : Bool} {slot : Nat} {todo : List (Bool × Nat)}
    (h : Stands fr f b j (.ptr (.object id)) d) (hc : CanRelease c hook ds f g)
    (hcode : FieldsAt f b j ((isFn, slot) :: todo)) (hload : M.load (.ptr (.field id slot)) = .ok v)
    (hv : Delivers c (if isFn then g else f) v M log M') :
    ∃ fr', Stands fr' f b (j + 3) (.ptr (.object id)) d ∧ FieldsAt f b (j + 3) todo ∧
      Reaches c M (fr :: F) log M' (fr' :: F) := by
  obtain ⟨s, p, q, r, hp, hq, hr, hl₀, hl₁, hl₂, hmore⟩ := hcode
  have hf := hc.release.registers
  have h₁ := h.set (w := .ptr (.field id slot)) (r := p) (by omega)
  have h₂ := h₁.set (w := v) (r := q) (by omega)
  have hx : ((fr.set (some p) (.ptr (.field id slot))).set (some q) v).value? (.reg q) = some v :=
    h₁.value?_set hf hl₁
  refine ⟨_, h₂.set (w := .invalid) (r := r) (by omega), hmore, ?_⟩
  refine reaches_fieldAddr (h.line hl₀) (Frame.value?_of_reg h.value (by simp)) rfl ?_
  refine reaches_load (h₁.line hl₁) (h.value?_set hf hl₀) hload ?_
  cases isFn with
  | false => exact reaches_callHelper hc.serves (h₂.line hl₂) hx hv
  | true => exact reaches_callHelper hc.fnServes (h₂.line hl₂) hx hv

/-- The code does what the drop says: it releases a value, or the fields of an object that are left. -/
def Job.Done (c : Config) (f : Function) (M : Memory) (log : List Deed) (M' : Memory) : Job → Prop
  | .value v => Delivers c f v M log M'
  | .fields id todo => ∀ fr F b j d, Stands fr f b j (.ptr (.object id)) d → FieldsAt f b j todo →
      ∃ fr', Stands fr' f 4 0 (.ptr (.object id)) d ∧ Reaches c M (fr :: F) log M' (fr' :: F)

/-- An owner is taken from an object, and it is seen whether one is left. -/
theorem CanRelease.reaches_lower {z : Int} (hc : CanRelease c hook ds f g) {a : Value} {first : Nat}
    (hcount : M.load (.ptr (.field id countSlot)) = .ok (.int z)) (hz : 0 < z) (hbound : z < 2 ^ 31) :
    ∃ fr', Stands fr' f (if z = 1 then 2 else 3) 0 (.ptr (.object id)) d ∧
      Reaches c M (Frame.enter f [a, .ptr (.object id)] d first :: F) [.lower (id - 1)] (M.setCount id (z - 1))
        (fr' :: F) := by
  have hf := hc.release
  have hends := hc.serves.ends
  obtain ⟨fr₁, h₁, hr₁⟩ :=
    (Stands.enter (a := a) (v := .ptr (.object id)) hf.toHelperFrame d first).reaches_test (c := c)
    (M := M) (F := F) hf.registers hf.entry (hends.enters (b := 1) (k := 5) (by rw [hf.dec]; rfl) rfl)
  obtain ⟨fr₂, h₂, hreg₂, hr₂⟩ :=
    Stands.reaches_count (c := c) (F := F) h₁ hf.registers hf.type hf.dec hcount hz hbound
  have henters : f.Enters (if holds .le (Ord.compare (z - 1) 0) then 2 else 3) := by
    split
    · exact hf.tests.enters hends
    · exact hends.enters (b := 3) (k := 0) (by rw [hf.done]; rfl) rfl
  obtain ⟨fr₃, h₃, -, hr₃⟩ := h₂.reaches_compare (c := c) (M := M.setCount id (z - 1)) (F := F) hf.registers
    (by rw [if_neg (by simp), hf.dec]; rfl) (by rw [if_neg (by simp), hf.dec]; rfl) (by decide)
    (by decide) hreg₂ henters
  have hiff : z - 1 ≤ 0 ↔ z = 1 := by omega
  simp only [holds_le_compare, decide_eq_true_eq, hiff] at h₃
  exact ⟨fr₃, h₃, hr₁.trans (hr₂.trans hr₃)⟩

/-- The helper carries out every drop in which nothing fails. -/
theorem CanRelease.done (hc : CanRelease c hook ds f g) {job : Job} (h : Cascade (dropPlan ds) job M log M') :
    job.Done c f M log M' := by
  have hf := hc.release
  have hends := hc.serves.ends
  have hdone : (f.code 3)[0]? = some ⟨none, .ret none⟩ := by rw [hf.done]; rfl
  induction h with
  | null M =>
    intro a d first caller more
    obtain ⟨fr₁, h₁, hr₁⟩ :=
      (Stands.enter (a := a) (v := .null) hf.toHelperFrame d first).reaches_test hf.registers hf.entry
      (hends.enters hdone rfl)
    exact hr₁.trans (h₁.reaches_ret hdone)
  | keep hcount hz hbound =>
    intro a d first caller more
    obtain ⟨fr₁, h₁, hr₁⟩ := hc.reaches_lower hcount (by omega) hbound
    rw [if_neg (by omega)] at h₁
    exact hr₁.trans (h₁.reaches_ret hdone)
  | @free M M' id t log hcount htag _ hcheck ih =>
    intro a d first caller more
    obtain ⟨fr₁, h₁, hr₁⟩ := hc.reaches_lower hcount (by omega) (by omega)
    rw [if_pos rfl] at h₁
    obtain ⟨fr₂, h₂, hreg₂, hr₂⟩ := h₁.reaches_tag hf.registers hf.drop.1 hf.drop.2 (by decide) (by decide) rfl htag
    obtain ⟨fr₃, b₃, j₃, h₃, hfields, hr₃⟩ := h₂.reaches_tests hf.registers hends hreg₂ hf.tests
    obtain ⟨fr₄, h₄, hr₄⟩ := ih fr₃ (caller :: more) b₃ j₃ d h₃ hfields
    -- the fields are gone: the object is given back
    obtain ⟨r, hr, hfree⟩ := hf.free
    obtain ⟨k, hfind, hdefined, hhost⟩ := hc.host
    have hvs : [Operand.null, .reg 1].mapM fr₄.value? = some [.null, .ptr (.object id)] := by
      have hnull : fr₄.value? .null = some .null := rfl
      simp [List.mapM_cons, hnull, h₄.value?_param hf.size]
    have h₅ := h₄.set (w := .invalid) (r := r) (by omega)
    have hend : Reaches c M' (fr₄ :: caller :: more) [.back (id - 1)] (M'.giveBack id)
        (caller.set (some d) .invalid :: more) := by
      refine reaches_back (h₄.line_of_eq hfree rfl) rfl hvs hfind hdefined hhost hcheck ?_
      refine reaches_br (h₅.line_of_eq hfree rfl) (h₅.function ▸ hends.enters hdone rfl) ?_
      exact (h₅.goto 3).reaches_ret hdone
    exact hr₁.trans (hr₂.trans (hr₃.trans (hr₄.trans hend)))
  | done M =>
    intro fr F b j d hfr hcode
    have hfree : ∃ l : Line, (f.code 4)[1]? = some l ∧ l.instr.isTerminator = true := by
      obtain ⟨r, -, hfree⟩ := hf.free
      exact ⟨_, by rw [hfree]; rfl, rfl⟩
    obtain ⟨l, hl, hterm⟩ := hfree
    exact ⟨_, hfr.goto 4, reaches_br (hfr.line hcode) (hfr.function ▸ hends.enters hl hterm) (.refl _ _)⟩
  | @next M M₁ M₂ id slot isFn v todo log log' hload hclosure _ _ ih₁ ih₂ =>
    intro fr F b j d hfr hcode
    have hv : Delivers c (if isFn then g else f) v M log M₁ := by
      cases isFn with
      | false => exact ih₁
      | true =>
        obtain ⟨id', rfl, htag⟩ := hclosure rfl
        exact delivers_fnHelper_of_closure hc.fnRelease hc.fnServes.ends hc.serves htag ih₁
    obtain ⟨fr₁, h₁, hcode₁, hr₁⟩ := hfr.reaches_field (F := F) hc hcode hload hv
    obtain ⟨fr₂, h₂, hr₂⟩ := ih₂ fr₁ F b (j + 3) d h₁ hcode₁
    exact ⟨fr₂, h₂, hr₁.trans hr₂⟩
  | skip hload hv _ ih =>
    intro fr F b j d hfr hcode
    obtain ⟨fr₁, h₁, hcode₁, hr₁⟩ := hfr.reaches_field (F := F) hc hcode hload
      (delivers_fnHelper_of_plain hc.fnRelease hc.fnServes.ends hv)
    obtain ⟨fr₂, h₂, hr₂⟩ := ih fr₁ F b (j + 3) d h₁ hcode₁
    exact ⟨fr₂, h₂, hr₁.trans hr₂⟩

end

end TypedScript.Machine
