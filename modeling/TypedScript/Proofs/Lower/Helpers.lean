import TypedScript.Proofs.Lower.Draft

/-!
# The helpers are what they are meant to be

The code that lowering gives to the four helpers is the one that the runtime is proved about. Three of them are
the same in every program; the one that takes owners away has tests and releases for each layout with counted
fields.
-/

namespace TypedScript.Lower

open TypedScript.Ir TypedScript.Layout TypedScript.Machine

/-- A function with a body is tame, or one of the helpers. -/
inductive IsSettled (o : Options) (ds : List Descriptor) (g : Function) : Prop
  | user (h : IsUserFunction o g)
  | retain (hname : g.name = retainName) (h : RetainCode g)
  | fnRetain (hname : g.name = fnRetainName) (h : FnHelperCode retainName g)
  | fnRelease (hname : g.name = fnReleaseName) (h : FnHelperCode releaseName g)
  | release (hname : g.name = releaseName) (h : ReleaseCode o.release ds g)

section

variable {o : Options} {ds : List Descriptor} {g : Function}

/-- A function that has the name of no helper is tame. -/
theorem IsSettled.isUserFunction (h : IsSettled o ds g) (hname : g.name ∉ helperNames) : IsUserFunction o g := by
  cases h with
  | user h => exact h
  | retain hn _ | fnRetain hn _ | fnRelease hn _ | release hn _ => exact absurd (by simp [hn, helperNames]) hname

theorem IsSettled.retainCode (h : IsSettled o ds g) (hname : g.name = retainName) : RetainCode g := by
  cases h with
  | user h => exact absurd (by simp [hname, helperNames]) h.1
  | retain _ h => exact h
  | fnRetain hn _ | fnRelease hn _ | release hn _ => exact absurd (hname.symm.trans hn) (by decide)

theorem IsSettled.fnRetainCode (h : IsSettled o ds g) (hname : g.name = fnRetainName) :
    FnHelperCode retainName g := by
  cases h with
  | user h => exact absurd (by simp [hname, helperNames]) h.1
  | fnRetain _ h => exact h
  | retain hn _ | fnRelease hn _ | release hn _ => exact absurd (hname.symm.trans hn) (by decide)

theorem IsSettled.fnReleaseCode (h : IsSettled o ds g) (hname : g.name = fnReleaseName) :
    FnHelperCode releaseName g := by
  cases h with
  | user h => exact absurd (by simp [hname, helperNames]) h.1
  | fnRelease _ h => exact h
  | retain hn _ | fnRetain hn _ | release hn _ => exact absurd (hname.symm.trans hn) (by decide)

theorem IsSettled.releaseCode (h : IsSettled o ds g) (hname : g.name = releaseName) :
    ReleaseCode o.release ds g := by
  cases h with
  | user h => exact absurd (by simp [hname, helperNames]) h.1
  | release _ h => exact h
  | retain hn _ | fnRetain hn _ | fnRelease hn _ => exact absurd (hname.symm.trans hn) (by decide)

end

variable {P : Function → Prop} {names : List String} {name : String} {reg : Registry} {pg : Page} {s s' : State}

theorem Writes.run {act : LowerM Unit} {u : Unit} {pg' : Page} (h : Writes P names name reg act pg () pg')
    (hs : Drafted P names name reg pg s) (hrun : Runs act s u s') : Drafted P names name reg pg' s' :=
  (h s u s' hs hrun).2

theorem Writes.forM {β : Type} {g : β → LowerM PUnit} {step : Page → β → Page} {xs : List β} {pg : Page}
    (h : ∀ x ∈ xs, ∀ pg, Writes P names name reg (g x) pg ⟨⟩ (step pg x)) :
    Writes P names name reg (xs.forM g) pg ⟨⟩ (xs.foldl step pg) := by
  induction xs generalizing pg with
  | nil => exact .pure
  | cons x xs ih =>
    exact (h x List.mem_cons_self pg).bind (ih fun y hy => h y (List.mem_cons_of_mem x hy))

/-! ### Retaining -/

/-- The helper that adds an owner. -/
def retainPage : Page :=
  (((((((((Page.blank.newBlock.newBlock.value (.compare .eq (.reg 1) .null)).effect (.condBr (.reg 2) 2 1)).goto
    1).value
    (.fieldAddr headerStruct (.reg 1) countSlot)).value (.load Scalar.i32 (.reg 3))).value
    (.binary .add (.reg 4) (.int .i32 1))).effect (.store (.reg 3) (.reg 5))).effect (.br 2)).goto 2).effect
    (.ret none)

theorem Finished.defineRetain {o : Options} {ds : List Descriptor} {u : Unit}
    (h : Finished (IsSettled o ds) names reg s) (hrun : Runs Lower.defineRetain s u s') : Finished (IsSettled o ds)
    (retainName :: names) reg s' := by
  obtain ⟨n, t, hdefine, hrest⟩ := runs_bind.1 hrun
  have hblank := h.define (by simp [helperNames]) hdefine
  have hpage : Drafted (IsSettled o ds) (retainName :: names) retainName reg retainPage s' := by
    refine Writes.run ?_ hblank hrest
    refine (writes_newBlock _).bind <| (writes_newBlock _).bind <| (writes_emitValue rfl).bind <|
      (writes_emitEffect rfl).bind <| (writes_setInsert _).bind <| (writes_emitValue rfl).bind <|
      (writes_emitValue rfl).bind <| (writes_emitValue rfl).bind <| (writes_emitEffect rfl).bind <|
      (writes_emitEffect rfl).bind <| (writes_setInsert _).bind <| writes_emitEffect rfl
  refine hpage.finish (fun f hname hframe htyped hcode => ?_) (by decide)
  refine .retain hname ⟨hframe, hcode 0, hcode 1, hcode 2, ?_⟩
  have hmem : (⟨some 4, .load Scalar.i32 (.reg 3)⟩ : Line) ∈ f.code 1 := by
    rw [hcode 1]
    exact List.mem_cons_of_mem _ List.mem_cons_self
  exact (htyped 1 _ hmem 4 rfl).2 _ _ rfl

/-! ### Function values -/

/-- A helper for function values. -/
def fnHelperPage (inner : String) : Page :=
  (((((((((((Page.blank.newBlock.newBlock.newBlock.value (.compare .eq (.reg 1) .null)).effect
    (.condBr (.reg 2) 3 1)).goto 1).value (.fieldAddr headerStruct (.reg 1) tagSlot)).value
    (.load Scalar.i32 (.reg 3))).value (.compare .eq (.reg 4) (.int .i32 closureTag))).effect
    (.condBr (.reg 5) 2 3)).goto 2).value (.call helperSig (.func inner) [.null, .reg 1])).effect (.br 3)).goto
    3).effect
    (.ret none)

theorem writes_callHelper (inner : String) (v : Operand) :
    Writes P names name reg (callHelper inner v) pg () (pg.value (.call helperSig (.func inner) [.null, v])) :=
  (writes_emitValue rfl).bind .pure

theorem Finished.defineFnHelper {inner : String} {u : Unit} (h : Finished P names reg s)
    (hname : name ∈ helperNames) (hP : ∀ f : Function, f.name = name → FnHelperCode inner f → P f)
    (hrun : Runs (Lower.defineFnHelper name inner) s u s') : Finished P (name :: names) reg s' := by
  obtain ⟨n, t, hdefine, hrest⟩ := runs_bind.1 hrun
  have hpage : Drafted P (name :: names) name reg (fnHelperPage inner) s' := by
    refine Writes.run ?_ (h.define hname hdefine) hrest
    refine (writes_newBlock _).bind <| (writes_newBlock _).bind <| (writes_newBlock _).bind <|
      (writes_emitValue rfl).bind <| (writes_emitEffect rfl).bind <| (writes_setInsert _).bind <| Writes.bind
      ((writes_emitValue rfl).bind <| (writes_emitValue rfl).bind <| writes_emitValue rfl) <|
      (writes_emitEffect rfl).bind <| (writes_setInsert _).bind <| (writes_callHelper _ _).bind <|
      (writes_emitEffect rfl).bind <| (writes_setInsert _).bind <| writes_emitEffect rfl
  have hsize : 2 ≤ (fnHelperPage inner).registers := Nat.le_add_left 2 5
  refine hpage.finish (fun f hf hframe _ hcode => hP f hf ?_) hsize
  exact ⟨hframe, hcode 0, hcode 1, hcode 2, hcode 3⟩

/-! ### Releasing fields -/

/-- The helper that releases values of a representation. -/
def releaserOf (r : Rep) : String :=
  match r with
  | .func _ => fnReleaseName
  | _ => releaseName

/-- The lines that release fields of a layout, from the given register on. -/
def fieldLines (d : Descriptor) : Nat → List Field → List Line
  | _, [] => []
  | r, f :: fs =>
    ⟨some r, .fieldAddr (structOf d) (.reg 1) f.slot⟩ :: ⟨some (r + 1), .load Scalar.ptr (.reg r)⟩ ::
      ⟨some (r + 2), .call helperSig (.func (releaserOf f.rep)) [.null, .reg (r + 1)]⟩ :: fieldLines d (r + 3) fs

namespace Page

/-- One field is released. -/
def field (d : Descriptor) (pg : Page) (f : Field) : Page :=
  ((pg.value (.fieldAddr (structOf d) (.reg 1) f.slot)).value (.load Scalar.ptr (.reg pg.registers))).value
    (.call helperSig (.func (releaserOf f.rep)) [.null, .reg (pg.registers + 1)])

theorem fields_eq (d : Descriptor) (fs : List Field) (pg : Page) :
    fs.foldl (field d) pg = { pg with
      code := fun b => if b = pg.block then pg.code b ++ fieldLines d pg.registers fs else pg.code b
      registers := pg.registers + 3 * fs.length } := by
  induction fs generalizing pg with
  | nil => simp [fieldLines]
  | cons f fs ih =>
    rw [List.foldl_cons, ih]
    simp only [field, value, line, fieldLines, mk.injEq, List.length_cons, and_true]
    constructor
    · funext b
      split <;> simp [Nat.add_assoc]
    · omega

/-- The test for the tag of a layout, with the releases of its fields. -/
def drop (pg : Page) (d : Descriptor) : Page :=
  ((d.countedFields.foldl (field d) (((pg.newBlock.newBlock.value (.compare .eq (.reg 8) (.int .i32 d.tag))).effect
    (.condBr (.reg pg.registers) pg.blocks (pg.blocks + 1))).goto pg.blocks)).effect (.br 4)).goto (pg.blocks + 1)

theorem block_drop (pg : Page) (d : Descriptor) : (pg.drop d).block = pg.blocks + 1 := rfl

theorem blocks_drop (pg : Page) (d : Descriptor) : (pg.drop d).blocks = pg.blocks + 2 := by
  simp [drop, fields_eq, goto, effect, line, value, newBlock]

theorem registers_drop (pg : Page) (d : Descriptor) :
    (pg.drop d).registers = pg.registers + 1 + 3 * d.countedFields.length := by
  simp [drop, fields_eq, goto, effect, line, value, newBlock]

theorem code_drop (pg : Page) (d : Descriptor) (h : pg.block < pg.blocks) (b : Nat) :
    (pg.drop d).code b =
      if b = pg.block then pg.code b ++ [⟨some pg.registers, .compare .eq (.reg 8) (.int .i32 d.tag)⟩,
        ⟨none, .condBr (.reg pg.registers) pg.blocks (pg.blocks + 1)⟩]
      else if b = pg.blocks then pg.code b ++ (fieldLines d (pg.registers + 1) d.countedFields ++ [⟨none, .br 4⟩])
      else pg.code b := by
  simp only [drop, fields_eq, goto, effect, line, value, newBlock]
  by_cases hb : b = pg.block
  · have hne : b ≠ pg.blocks := by omega
    simp [hb, Nat.ne_of_lt h]
  · by_cases hbs : b = pg.blocks
    · simp [hbs, Nat.ne_of_gt h]
    · simp [hb, hbs]

end Page

/-- The computation that releases a counted field. -/
theorem writes_field {d : Descriptor} {f : Field} (hf : f.rep.isCounted = true) :
    Writes P names name reg (do release f.rep (← loadField d helperParam f)) pg () (pg.field d f) := by
  have htype : irType f.rep = .ptr := by
    cases hr : f.rep <;> rw [hr] at hf <;> first | rfl | cases hf
  have hload : Writes P names name reg (loadField d helperParam f) pg (.reg (pg.registers + 1))
      ((pg.value (.fieldAddr (structOf d) (.reg 1) f.slot)).value (.load Scalar.ptr (.reg pg.registers))) := by
    unfold loadField
    rw [htype]
    exact Writes.bind ((writes_useStruct d).bind (writes_emitValue rfl)) (writes_emitValue rfl)
  refine hload.bind ?_
  unfold Page.field releaserOf
  cases hr : f.rep <;> rw [hr] at hf <;> first | exact writes_callHelper _ _ | cases hf

theorem writes_emitDrop (d : Descriptor) :
    Writes P names name reg (emitDrop (.reg 8) 4 d) pg () (pg.drop d) := by
  refine (writes_newBlock _).bind <| (writes_newBlock _).bind <| (writes_emitValue rfl).bind <|
    (writes_emitEffect rfl).bind <| (writes_setInsert _).bind <| Writes.bind (Writes.forM fun f hf pg => ?_) <|
    (writes_emitEffect rfl).bind <| writes_setInsert _
  exact writes_field (List.mem_filter.1 hf).2

/-! ### Reading the code -/

/-- The first of some lines, and the rest. -/
theorem lines_cons {l : Line} {ls code : List Line} {k : Nat} (h : l :: ls <+: code.drop k) :
    code[k]? = some l ∧ ls <+: code.drop (k + 1) := by
  obtain ⟨t, ht⟩ := h
  constructor
  · have hhead : (code.drop k)[0]? = some l := by rw [← ht]; rfl
    simpa using hhead
  · refine ⟨t, ?_⟩
    rw [← List.drop_drop, ← ht]
    rfl

/-- Lines that follow others. -/
theorem lines_of_append {ls ls' code : List Line} (h : ls ++ ls' <+: code) : ls' <+: code.drop ls.length := by
  obtain ⟨t, rfl⟩ := h
  rw [List.append_assoc, List.drop_left]
  exact List.prefix_append _ _

theorem fieldsAt_of_lines {f : Function} {d : Descriptor} {b k r : Nat} {fs : List Field} (hr : 9 ≤ r)
    (h : fieldLines d r fs ++ [⟨none, .br 4⟩] <+: (f.code b).drop k) :
    FieldsAt f b k (fs.map fun g => (match g.rep with | .func _ => true | _ => false, g.slot)) := by
  induction fs generalizing k r with
  | nil => exact (lines_cons h).1
  | cons g fs ih =>
    obtain ⟨haddr, h₁⟩ := lines_cons h
    obtain ⟨hload, h₂⟩ := lines_cons h₁
    obtain ⟨hcall, h₃⟩ := lines_cons h₂
    refine ⟨structOf d, r, r + 1, r + 2, hr, by omega, by omega, haddr, hload, ?_, ih (by omega) h₃⟩
    rw [hcall]
    unfold releaserOf
    cases g.rep <;> rfl

namespace Page

/-- What holds while the tests are written: the block at hand is not one of those with fixed code. -/
structure InTests (pg : Page) : Prop where
  block : pg.block = 2 ∨ 5 ≤ pg.block
  block_lt : pg.block < pg.blocks
  blocks : 5 ≤ pg.blocks
  empty : ∀ b, pg.blocks ≤ b → pg.code b = []
  registers : 9 ≤ pg.registers

theorem InTests.drop {pg : Page} (h : pg.InTests) (d : Descriptor) : (pg.drop d).InTests := by
  have hblock := h.block
  have hlt := h.block_lt
  have hblocks := h.blocks
  refine ⟨.inr ?_, ?_, ?_, fun b hb => ?_, ?_⟩
  · rw [block_drop]
    omega
  · rw [block_drop, blocks_drop]
    omega
  · rw [blocks_drop]
    omega
  · rw [blocks_drop] at hb
    rw [code_drop pg d hlt, if_neg (by omega), if_neg (by omega)]
    exact h.empty b (by omega)
  · rw [registers_drop]
    have := h.registers
    omega

/-- Blocks with fixed code stay as they are. -/
theorem InTests.code_drops (ds : List Descriptor) {pg : Page} (h : pg.InTests) :
    (ds.foldl Page.drop pg).InTests ∧ ∀ b, b < 5 → b ≠ 2 → (ds.foldl Page.drop pg).code b = pg.code b := by
  induction ds generalizing pg with
  | nil => exact ⟨h, fun _ _ _ => rfl⟩
  | cons d ds ih =>
    obtain ⟨hin, hcode⟩ := ih (h.drop d)
    refine ⟨hin, fun b hb hne => ?_⟩
    have hblock := h.block
    have hblocks := h.blocks
    rw [List.foldl_cons, hcode b hb hne, code_drop pg d h.block_lt, if_neg (by omega), if_neg (by omega)]

theorem prefix_effect (pg : Page) (i : Instr) (b : Nat) : pg.code b <+: (pg.effect i).code b := by
  unfold effect line
  dsimp only
  split
  · exact List.prefix_append _ _
  · exact List.prefix_rfl

/-- Tests only add lines. -/
theorem InTests.prefix_drops (ds : List Descriptor) {pg : Page} (h : pg.InTests) (b : Nat) :
    pg.code b <+: (ds.foldl Page.drop pg).code b := by
  induction ds generalizing pg with
  | nil => exact List.prefix_rfl
  | cons d ds ih =>
    refine List.IsPrefix.trans ?_ (ih (h.drop d))
    rw [code_drop pg d h.block_lt]
    split
    · exact List.prefix_append _ _
    · split
      · exact List.prefix_append _ _
      · exact List.prefix_rfl

/-- A function whose code goes on from that of the page has the tests of the layouts. -/
theorem InTests.testsAt {f : Function} {ds : List Descriptor} {pg : Page} (h : pg.InTests)
    (hf : ∀ b, ((ds.foldl Page.drop pg).effect (.br 4)).code b <+: f.code b) :
    TestsAt f pg.block (pg.code pg.block).length ds := by
  induction ds generalizing pg with
  | nil =>
    have hend := hf pg.block
    simp only [List.foldl_nil, effect, line, if_true] at hend
    exact (lines_cons (lines_of_append hend)).1
  | cons d ds ih =>
    have hgrow : ∀ b, (pg.drop d).code b <+: f.code b := by
      intro b
      exact ((h.drop d).prefix_drops ds b).trans ((prefix_effect _ _ b).trans (hf b))
    have htest := hgrow pg.block
    rw [code_drop pg d h.block_lt, if_pos rfl] at htest
    obtain ⟨hcompare, hrest⟩ := lines_cons (lines_of_append htest)
    have hfields := hgrow pg.blocks
    rw [code_drop pg d h.block_lt, if_neg (Nat.ne_of_gt h.block_lt), if_pos rfl,
      h.empty _ (Nat.le_refl _)] at hfields
    have hnext : (pg.drop d).code (pg.drop d).block = [] := by
      have hlt := h.block_lt
      rw [block_drop, code_drop pg d hlt, if_neg (by omega), if_neg (by omega)]
      exact h.empty _ (by omega)
    refine ⟨pg.registers, pg.blocks, pg.blocks + 1, h.registers, hcompare, (lines_cons hrest).1, ?_, ?_⟩
    · exact fieldsAt_of_lines (Nat.le_succ_of_le h.registers) hfields
    · have htail := ih (h.drop d) hf
      rw [hnext] at htail
      exact htail

end Page

/-! ### Releasing -/

/-- The helper that takes an owner away, up to the tests. -/
def releaseHead : Page :=
  ((((((((((((Page.blank.newBlock.newBlock.newBlock.value (.compare .eq (.reg 1) .null)).effect
    (.condBr (.reg 2) 3 1)).goto 1).value (.fieldAddr headerStruct (.reg 1) countSlot)).value
    (.load Scalar.i32 (.reg 3))).value (.binary .sub (.reg 4) (.int .i32 1))).effect
    (.store (.reg 3) (.reg 5))).value
    (.compare .le (.reg 5) (.int .i32 0))).effect (.condBr (.reg 6) 2 3)).goto 2).value
    (.fieldAddr headerStruct (.reg 1) tagSlot)).value (.load Scalar.i32 (.reg 7))).newBlock

/-- The helper from the last test on: the object is given back through the hook. -/
def Page.releaseTail (pg : Page) (hook : String) : Page :=
  (((((pg.effect (.br 4)).goto 4).value (.call helperSig (.func hook) [.null, .reg 1])).effect (.br 3)).goto
    3).effect
    (.ret none)

theorem releaseHead_inTests : releaseHead.InTests where
  block := .inl rfl
  block_lt := by decide
  blocks := by decide
  empty b hb := by
    have hne : b ≠ 0 ∧ b ≠ 1 ∧ b ≠ 2 := by
      have h5 : 5 ≤ b := hb
      omega
    simp [releaseHead, Page.newBlock, Page.value, Page.effect, Page.line, Page.goto, Page.blank, hne]
  registers := by decide

/-- The code of the tail, by block. -/
theorem Page.InTests.code_releaseTail {pg : Page} (h : pg.InTests) (hook : String) (b : Nat) :
    (pg.releaseTail hook).code b =
      if b = 3 then pg.code b ++ [⟨none, .ret none⟩]
      else if b = 4 then
        pg.code b ++ [⟨some pg.registers, .call helperSig (.func hook) [.null, .reg 1]⟩, ⟨none, .br 3⟩]
      else (pg.effect (.br 4)).code b := by
  have hblock := h.block
  have h3 : (3 : Nat) ≠ pg.block := by omega
  have h4 : (4 : Nat) ≠ pg.block := by omega
  simp only [Page.releaseTail, Page.effect, Page.goto, Page.value, Page.line]
  by_cases hb3 : b = 3
  · simp [hb3, h3]
  · by_cases hb4 : b = 4
    · simp [hb4, h4]
    · simp [hb3, hb4]

theorem Writes.read {β : Type} {f : State → LowerM β} {b : β} {pg' : Page}
    (h : ∀ s, s.registry = reg → Writes P names name reg (f s) pg b pg') : Writes P names name reg
    (get >>= f) pg b pg' := by
  intro s x s' hs hrun
  obtain ⟨_, _, hget, hrest⟩ := runs_bind.1 hrun
  obtain ⟨rfl, rfl⟩ := runs_get.1 hget
  exact h _ hs.registry _ x s' hs hrest

/-- The layouts with counted fields. -/
def countedLayouts (reg : Registry) : List Descriptor := reg.all.filter fun d => !d.countedFields.isEmpty

theorem releaseCode_of_page {hook : String} {ds : List Descriptor} {f : Function} (hframe : HelperFrame f)
    (htyped : f.IsTyped) (hcode : ∀ b, f.code b = ((ds.foldl Page.drop releaseHead).releaseTail hook).code b) :
    ReleaseCode hook ds f := by
  obtain ⟨hin, hfixed⟩ := releaseHead_inTests.code_drops ds
  have hblock := hin.block
  -- the blocks before the tests are left alone
  have hfront : ∀ b, b < 2 → f.code b = releaseHead.code b := by
    intro b hb
    rw [hcode, hin.code_releaseTail, if_neg (by omega), if_neg (by omega)]
    unfold Page.effect Page.line
    dsimp only
    rw [if_neg (by omega), hfixed b (by omega) (by omega)]
  have hgrow : ∀ b, ((ds.foldl Page.drop releaseHead).effect (.br 4)).code b <+: f.code b := by
    intro b
    rw [hcode, hin.code_releaseTail]
    have hsame : b = 3 ∨ b = 4 → ((ds.foldl Page.drop releaseHead).effect (.br 4)).code b =
        (ds.foldl Page.drop releaseHead).code b := by
      intro hb
      unfold Page.effect Page.line
      dsimp only
      rw [if_neg (by omega)]
    split
    · rename_i hb
      rw [hsame (.inl hb)]
      exact List.prefix_append _ _
    · split
      · rename_i hb
        rw [hsame (.inr hb)]
        exact List.prefix_append _ _
      · exact List.prefix_rfl
  have hdrop : releaseHead.code 2 <+: f.code 2 :=
    (releaseHead_inTests.prefix_drops ds 2).trans ((Page.prefix_effect _ _ 2).trans (hgrow 2))
  obtain ⟨t, ht⟩ := hdrop
  have hload : (⟨some 4, .load Scalar.i32 (.reg 3)⟩ : Line) ∈ f.code 1 := by
    rw [hfront 1 (by omega)]
    exact List.mem_cons_of_mem _ List.mem_cons_self
  refine ⟨hframe, hfront 0 (by omega), hfront 1 (by omega), ?_, releaseHead_inTests.testsAt hgrow, ?_, ?_, ?_⟩
  · rw [← ht]
    exact ⟨rfl, rfl⟩
  · rw [hcode, hin.code_releaseTail, if_pos rfl, hfixed 3 (by omega) (by omega)]
    rfl
  · refine ⟨_, hin.registers, ?_⟩
    rw [hcode, hin.code_releaseTail, if_neg (by omega), if_pos rfl, hfixed 4 (by omega) (by omega)]
    rfl
  · exact (htyped 1 _ hload 4 rfl).2 _ _ rfl

/-- The helper from the first test on. -/
theorem writes_releaseRest (hook : String) :
    Writes P names name reg (do
      ((← get).registry.all.filter fun d => !d.countedFields.isEmpty).forM (emitDrop (.reg 8) 4)
      br 4
      setInsert 4
      let _ ← callDirect helperSig (.func hook) [.null, helperParam]
      br 3
      setInsert 3
      ret .absent) pg () (((countedLayouts reg).foldl Page.drop pg).releaseTail hook) := by
  refine .read fun s hs => ?_
  have htests : Writes P names name reg ((countedLayouts reg).forM (emitDrop (.reg 8) 4)) pg ⟨⟩
      ((countedLayouts reg).foldl Page.drop pg) := .forM fun d _ _ => writes_emitDrop d
  rw [hs]
  exact htests.bind <| (writes_emitEffect rfl).bind <| (writes_setInsert _).bind <| (writes_emitValue rfl).bind <|
    (writes_emitEffect rfl).bind <| (writes_setInsert _).bind <| writes_emitEffect rfl

theorem Finished.defineRelease {inp : Input} {u : Unit}
    (h : Finished (IsSettled inp.options (countedLayouts reg)) names reg s)
    (hrun : Runs (Lower.defineRelease inp) s u s') :
    Finished (IsSettled inp.options (countedLayouts reg)) (releaseName :: names) reg s' := by
  obtain ⟨n, t, hdefine, hrest⟩ := runs_bind.1 hrun
  have hblank := h.define (by simp [helperNames]) hdefine
  have hpage : Drafted (IsSettled inp.options (countedLayouts reg)) (releaseName :: names) releaseName reg
      (((countedLayouts reg).foldl Page.drop releaseHead).releaseTail inp.options.release) s' := by
    refine Writes.run ?_ hblank hrest
    refine (writes_newBlock _).bind <| (writes_newBlock _).bind <| (writes_newBlock _).bind <|
      (writes_emitValue rfl).bind <| (writes_emitEffect rfl).bind <| (writes_setInsert _).bind <|
      (writes_emitValue rfl).bind <| (writes_emitValue rfl).bind <| (writes_emitValue rfl).bind <|
      (writes_emitEffect rfl).bind <| (writes_emitValue rfl).bind <| (writes_emitEffect rfl).bind <|
      (writes_setInsert _).bind <| (writes_emitValue rfl).bind <| (writes_emitValue rfl).bind <|
      (writes_newBlock _).bind <| writes_releaseRest _
  have hsize : 2 ≤ (((countedLayouts reg).foldl Page.drop releaseHead).releaseTail
    inp.options.release).registers := by
    have hin := (releaseHead_inTests.code_drops (countedLayouts reg)).1.registers
    exact Nat.le_succ_of_le (Nat.le_trans (by decide) hin)
  exact hpage.finish (fun f hname hframe htyped hcode => .release hname (releaseCode_of_page hframe htyped hcode))
    hsize

/-- The helpers have been defined. -/
theorem Finished.defineRuntime {inp : Input} {u : Unit}
    (h : Finished (IsSettled inp.options (countedLayouts reg)) names reg s)
    (hrun : Runs (Lower.defineRuntime inp) s u s') :
    Finished (IsSettled inp.options (countedLayouts reg))
      (releaseName :: fnReleaseName :: fnRetainName :: retainName :: names) reg s' := by
  obtain ⟨_, t₁, hretain, hrun₁⟩ := runs_bind.1 hrun
  obtain ⟨_, t₂, hfnRetain, hrun₂⟩ := runs_bind.1 hrun₁
  obtain ⟨_, t₃, hfnRelease, hrelease⟩ := runs_bind.1 hrun₂
  have h₁ := h.defineRetain hretain
  have h₂ := h₁.defineFnHelper (by simp [helperNames]) (fun f => .fnRetain) hfnRetain
  have h₃ := h₂.defineFnHelper (by simp [helperNames]) (fun f => .fnRelease) hfnRelease
  exact h₃.defineRelease hrelease

/-! ### Whole programs -/

/-- The names of the options are different from each other and from those of the helpers, and none is empty or has
a dot. -/
structure Options.IsRegular (o : Options) : Prop where
  nodup : (reservedNames o).Nodup
  plain : ∀ name ∈ reservedNames o, name ≠ "" ∧ '.' ∉ name.toList

instance (o : Options) : Decidable o.IsRegular :=
  decidable_of_iff ((reservedNames o).Nodup ∧ ∀ name ∈ reservedNames o, name ≠ "" ∧ '.' ∉ name.toList)
    ⟨fun h => ⟨h.1, h.2⟩, fun h => ⟨h.nodup, h.plain⟩⟩

/-- No function that the program declares has a name that is taken. -/
theorem notMem_of_checkNames {inp : Input} {u : Unit} (hrun : Runs (checkNames inp) s u s') : s' = s ∧
    ∀ id ∈ inp.tree.reachedOutsideTypes, ∀ name params result,
      inp.tree.form? id = some (.declareFunc name params result) → name ∉ reservedNames inp.options := by
  unfold checkNames at hrun
  dsimp only at hrun
  split at hrun
  · exact (runs_unsupported hrun).elim
  · rename_i hnone
    obtain ⟨-, rfl⟩ := runs_pure.1 hrun
    refine ⟨rfl, fun id hid name params result hform hmem => ?_⟩
    have hclash := List.find?_eq_none.1 (Option.eq_none_iff_forall_ne_some.2 hnone) id hid
    simp only [hform] at hclash
    exact hclash (List.contains_iff_mem.2 hmem)

theorem admissible_of_checkNames {inp : Input} {u : Unit} (ho : inp.options.IsRegular)
    (hrun : Runs (checkNames inp) s u s') : Admissible inp ∧ s' = s :=
  ⟨⟨fun name hname => (ho.plain name hname).2, (notMem_of_checkNames hrun).2⟩, (notMem_of_checkNames hrun).1⟩

/-- Lowering that ends without an error has run through the program. -/
theorem runs_of_lower {inp : Input} {target : Target} (h : (lower inp target).error = none) :
    Runs (lowerProgram inp) { registry := .ofTarget target } () (lower inp target).state := by
  unfold lower at h ⊢
  unfold Runs
  rcases hr : (lowerProgram inp).run.run { registry := .ofTarget target } with ⟨r, st⟩
  rw [hr] at h
  cases r with
  | ok u => rfl
  | error e => cases h

/-- The invariant holds when all functions have been lowered; only the helpers are defined after that. -/
theorem inv_of_lower {inp : Input} {target : Target} (ho : inp.options.IsRegular)
    (h : (lower inp target).error = none) :
    ∃ w t, Inv inp w t ∧ Runs (Lower.defineRuntime inp) t () (lower inp target).state := by
  obtain ⟨_, t₁, hnames, hrun₁⟩ := runs_bind.1 (runs_of_lower h)
  obtain ⟨hadm, rfl⟩ := admissible_of_checkNames ho hnames
  obtain ⟨_, t₂, hdeclare, hrun₂⟩ := runs_bind.1 hrun₁
  obtain ⟨hprelude, hhelpers⟩ := (prelude_start inp target).declareRuntime ho.nodup hdeclare
  obtain ⟨_, t₃, hentry, hrun₃⟩ := runs_bind.1 hrun₂
  obtain ⟨w₃, h₃⟩ := hprelude.lowerEntry hadm ho.nodup hhelpers hentry
  obtain ⟨_, t₄, hqueue, hruntime⟩ := runs_bind.1 hrun₃
  obtain ⟨w₄, h₄⟩ := h₃.lowerQueue hadm _ hqueue
  exact ⟨w₄, t₄, h₄, hruntime⟩

/-- What lowering has made of a program that it accepts: tame functions and the helpers. -/
theorem finished_lower {inp : Input} {target : Target} (ho : inp.options.IsRegular)
    (h : (lower inp target).error = none) :
    Finished (IsSettled inp.options (countedLayouts (lower inp target).state.registry))
      [releaseName, fnReleaseName, fnRetainName, retainName, inp.options.entry] (lower inp target).state.registry
      (lower inp target).state ∧ (lower inp target).state.registry.IsPlaced := by
  obtain ⟨w, t, ht, hruntime⟩ := inv_of_lower ho h
  have hstart : Finished (IsSettled inp.options (countedLayouts t.registry)) [inp.options.entry] t.registry t := by
    refine ⟨fun m hm => ?_, rfl, ht.codes.helpers⟩
    obtain ⟨hdeclared, hdefines⟩ := (ht.sketched m hm).finish
    refine ⟨⟨hdeclared.toListed, fun g hg hd => .user (hdeclared.known g hg hd)⟩, fun n hn => ?_⟩
    obtain rfl := List.mem_singleton.1 hn
    exact hdefines
  have hend := hstart.defineRuntime hruntime
  rw [hend.registry]
  exact ⟨hend, ht.layouts⟩

end TypedScript.Lower
