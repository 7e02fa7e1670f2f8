import TypedScript.Proofs.Runtime.Tame

/-!
# Runs of tame code

* `Program.safe`: a run of tame code comes to a sound end. Whatever it does, an object is given back once, when
  its last owner is gone.

The proof goes along the run. Calls of helpers and the making of an object are single steps of it.
-/

namespace TypedScript.Machine

open TypedScript.Ir TypedScript.Layout TypedScript.Lower

/-! ### Calls -/

/-- The marked registers of a call give no access to counts. -/
def GoodRegisters (o : Lower.Options) (κ : Marks) (fr : Frame) : Prop := ∀ r, κ[r]? = some true → (fr.reg r).Good o

/-- The lines that are left of the block. -/
def Frame.todo (fr : Frame) : List Line := (fr.function.code fr.block).drop fr.next

/-- A call of a tame function that can go on. -/
structure Ready (o : Lower.Options) (κ : Marks) (fr : Frame) : Prop where
  function : TameFunction o κ fr.function
  registers : GoodRegisters o κ fr
  code : Tame o κ fr.todo

/-- A call of a tame function that can go on when it gets a result. -/
def Awaits (o : Lower.Options) (fr : Frame) (d : Nat) : Prop := ∀ v, v.Good o → ∃ κ, Ready o κ (fr.set (some d) v)

/-- Every call can go on when the one inside it returns. -/
inductive Callers (o : Lower.Options) : Nat → List Frame → Prop
  | nil (d : Nat) : Callers o d []
  | cons {d : Nat} {fr : Frame} {rest : List Frame} (h : Awaits o fr d) (hrest : Callers o fr.dst rest) :
      Callers o d (fr :: rest)

section

variable {o : Lower.Options} {κ : Marks} {fr : Frame} {v : Value} {ls : List Line} {l : Line}

theorem Clean.good {x : Operand} (hx : Clean o κ x) (hfr : GoodRegisters o κ fr) (hv : fr.value? x = some v) :
    v.Good o := by
  cases x with
  | reg r => exact Frame.reg_of_value? hv ▸ hfr r hx
  | func name => cases hv; exact hx
  | int t z =>
    cases t <;> cases hv <;> trivial
  | float z => cases hv; trivial
  | bool z => cases hv; trivial
  | null => cases hv; trivial
  | string z => cases hv; trivial
  | absent => cases hv

theorem Clean.goods {xs : List Operand} (hxs : ∀ x ∈ xs, Clean o κ x) (hfr : GoodRegisters o κ fr) {vs : List Value}
    (hvs : xs.mapM fr.value? = some vs) : ∀ v ∈ vs, v.Good o := by
  induction xs generalizing vs with
  | nil => cases hvs; exact fun v hv => (List.not_mem_nil hv).elim
  | cons x xs ih =>
    simp only [List.mapM_cons, Option.bind_eq_bind, Option.bind_eq_some_iff, Option.pure_def,
      Option.some.injEq] at hvs
    obtain ⟨w, hw, ws, hws, rfl⟩ := hvs
    intro v hv
    rcases List.mem_cons.1 hv with rfl | hv
    · exact (hxs x (List.mem_cons_self ..)).good hfr hw
    · exact ih (fun y hy => hxs y (List.mem_cons_of_mem _ hy)) hws v hv

/-- A register after a store to it; one that is not there keeps nothing. -/
theorem Frame.reg_set_cases (fr : Frame) (d : Nat) (v : Value) :
    (fr.set (some d) v).reg d = v ∨ (fr.set (some d) v).reg d = .invalid := by
  by_cases hs : d < fr.registers.size
  · exact .inl (Frame.reg_set_self v hs)
  · exact .inr (by simp [Frame.reg, Frame.set, Nat.le_of_not_lt hs])

theorem GoodRegisters.set {dst : Option Nat} (h : GoodRegisters o κ fr) (hv : v.Good o) :
    GoodRegisters o κ (fr.set dst v) := by
  intro r hr
  cases dst with
  | none => exact h r hr
  | some d =>
    by_cases hd : r = d
    · subst hd
      rcases fr.reg_set_cases r v with hs | hs
      · rw [hs]
        exact hv
      · rw [hs]
        trivial
    · rw [Frame.reg_set_of_ne v hd]
      exact h r hr

/-- A register without a mark may hold anything. -/
theorem GoodRegisters.set_unmarked {d : Nat} (h : GoodRegisters o κ fr) (hd : κ[d]? = some false) :
    GoodRegisters o κ (fr.set (some d) v) := by
  intro r hr
  have hne : r ≠ d := by
    rintro rfl
    rw [hd] at hr
    cases hr
  rw [Frame.reg_set_of_ne v hne]
  exact h r hr

theorem goodRegisters_enter {f : Function} {vs : List Value} {d first : Nat} (hvs : ∀ v ∈ vs, v.Good o) :
    GoodRegisters o κ (Frame.enter f vs d first) := by
  have hall : ∀ v ∈ (Frame.enter f vs d first).registers, v.Good o := by
    intro v hv
    rcases mem_registers_enter hv with hv | rfl | ⟨_, rfl⟩
    · exact hvs v hv
    · trivial
    · trivial
  intro r _
  unfold Frame.reg
  rw [Array.getD_eq_getD_getElem?]
  cases hr : (Frame.enter f vs d first).registers[r]? with
  | none => trivial
  | some v => exact hall v (Array.mem_of_getElem? hr)

theorem Ready.enter {f : Function} {vs : List Value} {d first : Nat} (hf : TameFunction o κ f)
    (hvs : ∀ v ∈ vs, v.Good o) :
    Ready o κ (Frame.enter f vs d first) :=
  ⟨hf, goodRegisters_enter hvs, hf 0⟩

theorem Ready.goto (h : Ready o κ fr) (b : Nat) : Ready o κ (fr.goto b) := ⟨h.function, h.registers, h.function b⟩

/-- The next line. -/
theorem Frame.line?_of_todo (h : fr.todo = l :: ls) : fr.line? = some l := by
  rw [Frame.line?_eq, ← List.head?_drop]
  exact congrArg List.head? h

/-- What follows the next line. -/
theorem Frame.todo_set (h : fr.todo = l :: ls) (dst : Option Nat) (v : Value) : (fr.set dst v).todo = ls := by
  change (fr.function.code fr.block).drop (fr.next + 1) = ls
  rw [← List.drop_drop]
  exact congrArg (List.drop 1) h

/-- The call goes on with the line after this one. -/
theorem Ready.set {dst : Option Nat} (h : Ready o κ fr) (htodo : fr.todo = l :: ls)
    (hls : Tame o κ ls) (hv : v.Good o) : Ready o κ (fr.set dst v) :=
  ⟨h.function, h.registers.set hv, (Frame.todo_set htodo dst v).symm ▸ hls⟩

theorem Ready.awaits (h : Ready o κ fr) (htodo : fr.todo = l :: ls) (hls : Tame o κ ls)
    (d : Nat) : Awaits o fr d := fun _ hv => ⟨κ, h.set htodo hls hv⟩

end

/-! ### Runs -/

/-- Every run of tame code with at most `n` instructions is safe. -/
def TameSafe (c : Config) (o : Lower.Options) (n : Nat) : Prop :=
  ∀ M fr rest k κ, Tidy o M k → Ready o κ fr → Callers o fr.dst rest → Safe c n M (fr :: rest) k

section

variable {c : Config} {o : Lower.Options} {ds : List Descriptor} {n k : Nat} {M : Memory} {κ : Marks} {fr : Frame}
  {rest : List Frame} {l : Line} {ls : List Line} {v : Value}

/-- The innermost call returns. -/
theorem TameSafe.returns (ih : TameSafe c o n) (hM : Tidy o M k) (hrest : Callers o fr.dst rest) (hv : v.Good o) :
    Returns c n M fr v k rest := by
  cases hrest with
  | nil =>
    refine ⟨fun ob hob => ?_, hM.settled.releases_eq⟩
    obtain ⟨x, hx, rfl⟩ := Memory.mem_iff_nth.1 hob
    exact hM.settled.released_iff x hx not_false
  | cons hawait hrest =>
    obtain ⟨κ, hκ⟩ := hawait v hv
    exact ih M _ _ k κ hM hκ hrest

/-- A call of a helper. -/
theorem Program.safe_helper (hP : Program c o ds) (ih : ∀ m, m < n → TameSafe c o m) (hM : Tidy o M k)
    (hfr : Ready o κ fr) (hrest : Callers o fr.dst rest) {dst : Option Nat} {sig : Sig}
    {name : String} {x : Operand} (hname : name ∈ helperNames)
    (htodo : fr.todo = ⟨dst, .call sig (.func name) [.null, x]⟩ :: ls)
    (hls : Tame o κ ls) : Safe c n M (fr :: rest) k := by
  have hline := Frame.line?_of_todo htodo
  have hgo : ∀ m k' M', m < n → Tidy o M' k' → Safe c m M' (fr.set (some (dst.getD 0)) .invalid :: rest) k' :=
    fun m k' M' hm hM' => ih m hm M' _ _ k' κ hM' (hfr.set htodo hls trivial) hrest
  cases hx : fr.value? x with
  | none =>
    -- the value is not there
    refine safe_call hline fun name' vs g _ hvs => ?_
    have hnull : fr.value? .null = some .null := rfl
    simp [List.mapM_cons, hnull, hx] at hvs
  | some v =>
    simp only [helperNames, List.mem_cons, List.not_mem_nil, or_false] at hname
    rcases hname with rfl | rfl | rfl | rfl
    · refine safe_callHelper hline hx hP.provides_retain hM.bounded fun m k' M' hm _ hR hM' => ?_
      exact hgo m k' M' hm (hM.raise hR hM')
    · refine safe_callHelper hline hx (hP.provides_release n) hM.bounded fun m k' M' hm _ hR hM' => ?_
      exact hgo m k' M' hm (hM.drop hP.slots hR hM')
    · refine safe_callHelper hline hx hP.provides_fnRetain hM.bounded ?_
      rintro m k' M' hm hk (⟨-, hR⟩ | ⟨-, rfl⟩) hM'
      · exact hgo m k' M' hm (hM.raise hR hM')
      · exact hgo m k' M' hm (hM.mono (Nat.le_of_lt hk))
    · refine safe_callHelper hline hx (hP.provides_fnRelease (hP.provides_release n)) hM.bounded ?_
      rintro m k' M' hm hk (⟨-, hR⟩ | ⟨-, rfl⟩) hM'
      · exact hgo m k' M' hm (hM.drop hP.slots hR hM')
      · exact hgo m k' M' hm (hM.mono (Nat.le_of_lt hk))

/-- A call of any other function. -/
theorem Program.safe_function (hP : Program c o ds) (ih : ∀ m, m < n → TameSafe c o m) (hM : Tidy o M k)
    (hfr : Ready o κ fr) (hrest : Callers o fr.dst rest) {dst : Option Nat} {sig : Sig} {callee : Operand}
    {args : List Operand} (hcallee : Clean o κ callee) (hargs : ∀ a ∈ args, Clean o κ a)
    (htodo : fr.todo = ⟨dst, .call sig callee args⟩ :: ls) (hls : Tame o κ ls) :
    Safe c n M (fr :: rest) k := by
  refine safe_call (Frame.line?_of_todo htodo) ?_
  intro name vs g hname hvs hfind m hm
  have hgood : name ∉ reservedNames o := hcallee.good hfr.registers hname
  have hvalues := Clean.goods hargs hfr.registers hvs
  refine ⟨fun hdef _ => ?_, fun hdef host hhost => ?_⟩
  · obtain ⟨κ', hg⟩ := hP.tame name g hfind hgood hdef
    exact ih m hm _ _ _ _ κ' ((hM.mono (Nat.le_succ k)).grow g) (.enter hg hvalues)
      (.cons (hfr.awaits htodo hls _) hrest)
  · rw [hP.printer name g hfind hgood hdef host hhost]
    cases vs with
    | nil => trivial
    | cons v vs => exact ih m hm _ _ _ _ κ (hM.mono (Nat.le_succ k)) (hfr.set htodo hls trivial) hrest

/-- A line that does not touch counts, or calls a helper. -/
theorem Program.safe_line (hP : Program c o ds) (ih : ∀ m, m < n → TameSafe c o m) (hM : Tidy o M k)
    (hfr : Ready o κ fr) (hrest : Callers o fr.dst rest)
    (htodo : fr.todo = l :: ls) (hl : TameInstr o κ l.instr) (hls : Tame o κ ls) :
    Safe c n M (fr :: rest) k := by
  obtain ⟨dst, i⟩ := l
  have hline := Frame.line?_of_todo htodo
  have hM' := hM.mono (Nat.le_succ k)
  have hset : ∀ m v, m < n → v.Good o → Safe c m M (fr.set dst v :: rest) (k + 1) :=
    fun m v hm hv => ih m hm M _ _ _ κ hM' (hfr.set htodo hls hv) hrest
  cases i with
  | fieldAddr s base slot =>
    refine safe_fieldAddr hline fun b v _ hv m hm => hset m v hm ?_
    unfold Memory.fieldAddr at hv
    split at hv <;> cases hv
    · exact hl.2
    · trivial
  | load t addr => exact safe_load hline fun a v _ hv m hm => hset m v hm (hM.load hv)
  | store addr value =>
    refine safe_store hline fun a v ha hv _ m hm => ?_
    have hput := hM'.put (hl.1.good hfr.registers ha) (hl.2.good hfr.registers hv)
    exact ih m hm _ _ _ _ κ hput (hfr.set htodo hls trivial) hrest
  | call sig callee args =>
    rcases hl with ⟨hcallee, hargs⟩ | ⟨name, hname, rfl, x, hx, rfl⟩
    · exact hP.safe_function ih hM hfr hrest hcallee hargs htodo hls
    · exact hP.safe_helper ih hM hfr hrest hname htodo hls
  | binary op x y =>
    exact safe_binary hline fun a b v _ _ hv m hm => hset m v hm (good_of_binary hv)
  | compare p x y =>
    exact safe_compare hline fun a b v _ _ hv m hm => hset m v hm (good_of_compare hv)
  | condBr cond yes no =>
    exact safe_condBr hline fun b _ m hm => ih m hm M _ _ _ κ hM' (hfr.goto _) hrest
  | br b => exact safe_br hline fun m hm => ih m hm M _ _ _ κ hM' (hfr.goto b) hrest
  | ret value =>
    cases value with
    | none => exact safe_ret_none hline fun m hm => (ih m hm).returns hM' hrest trivial
    | some x => exact safe_ret hline fun v hv m hm => (ih m hm).returns hM' hrest (Clean.good hl hfr.registers hv)

/-- A header is written: the tag, and a count of one. -/
theorem safe_header {s : Struct} {tag : Int} {r p q id : Nat} (hp : p ≠ r) (hκ : κ[q]? = some false)
    (hbase : fr.reg r = .ptr (.object id) ∨ fr.reg r = .invalid) (hregs : GoodRegisters o κ fr)
    (htodo : fr.todo = ⟨some p, .fieldAddr s (.reg r) tagSlot⟩ :: ⟨none, .store (.reg p) (.int .i32 tag)⟩ ::
      ⟨some q, .fieldAddr s (.reg r) countSlot⟩ :: ⟨none, .store (.reg q) (.int .i32 1)⟩ :: ls)
    (h : ∀ fr' m, m < n → fr'.function = fr.function → fr'.dst = fr.dst → GoodRegisters o κ fr' → fr'.todo = ls →
      Safe c m ((M.put (.ptr (.field id tagSlot)) (.int tag)).put (.ptr (.field id countSlot)) (.int 1))
        (fr' :: rest) (k + 4)) :
    Safe c n M (fr :: rest) k := by
  have haddr : ∀ {slot b a}, (b = .ptr (.object id) ∨ b = .invalid) → Memory.fieldAddr b slot = .ok a →
      a = .ptr (.field id slot) := by
    rintro slot b a (rfl | rfl) ha
    · cases ha; rfl
    · cases ha
  have hstore : ∀ {M : Memory} {fr : Frame} {d slot a},
    (fr.set (some d) (.ptr (.field id slot))).value? (.reg d) = some a →
      M.checkStore a = .ok () → a = .ptr (.field id slot) := by
    intro M fr d slot a ha hs
    rcases fr.reg_set_cases d (.ptr (.field id slot)) with hr | hr
    · exact (hr.symm.trans (Frame.reg_of_value? ha)).symm
    · cases hr.symm.trans (Frame.reg_of_value? ha)
      cases hs
  -- the tag
  refine safe_fieldAddr (Frame.line?_of_todo htodo) fun b a hb ha m₁ hm₁ => ?_
  cases Frame.reg_of_value? hb
  obtain rfl := haddr hbase ha
  have htodo₁ := Frame.todo_set htodo (some p) (.ptr (.field id tagSlot))
  refine safe_store (Frame.line?_of_todo htodo₁) fun a₂ v₂ ha₂ hv₂ hs₂ m₂ hm₂ => ?_
  obtain rfl := hstore ha₂ hs₂
  cases hv₂
  have htodo₂ := Frame.todo_set htodo₁ none .invalid
  -- the count
  refine safe_fieldAddr (Frame.line?_of_todo htodo₂) fun b₃ a₃ hb₃ ha₃ m₃ hm₃ => ?_
  replace hb₃ := Frame.reg_of_value? hb₃
  rw [Frame.reg_set_none, Frame.reg_set_of_ne _ hp.symm] at hb₃
  cases hb₃
  obtain rfl := haddr hbase ha₃
  have htodo₃ := Frame.todo_set htodo₂ (some q) (.ptr (.field id countSlot))
  refine safe_store (Frame.line?_of_todo htodo₃) fun a₄ v₄ ha₄ hv₄ hs₄ m₄ hm₄ => ?_
  obtain rfl := hstore ha₄ hs₄
  cases hv₄
  refine h _ m₄ (by omega) rfl rfl ?_ (Frame.todo_set htodo₃ none .invalid)
  have hregs₁ : GoodRegisters o κ (fr.set (some p) (.ptr (.field id tagSlot))) :=
    hregs.set (show tagSlot ≠ countSlot by decide)
  have hregs₂ : GoodRegisters o κ ((fr.set (some p) (.ptr (.field id tagSlot))).set none .invalid) := hregs₁
  exact hregs₂.set_unmarked hκ

/-- An object is made. -/
theorem Program.safe_alloc (hP : Program c o ds) (ih : ∀ m, m < n → TameSafe c o m) (hM : Tidy o M k)
    (hfr : Ready o κ fr) (hrest : Callers o fr.dst rest) {s : Struct} {size tag : Int} {r p q : Nat} (hp : p ≠ r)
    (hκ : κ[q]? = some false)
    (htodo : fr.todo =
      ⟨some r, .call allocateSig (.func o.allocate) [.null, .int .i64 size]⟩ ::
        ⟨some p, .fieldAddr s (.reg r) tagSlot⟩ ::
        ⟨none, .store (.reg p) (.int .i32 tag)⟩ :: ⟨some q, .fieldAddr s (.reg r) countSlot⟩ ::
        ⟨none, .store (.reg q) (.int .i32 1)⟩ :: ls)
    (hls : Tame o κ ls) : Safe c n M (fr :: rest) k := by
  refine safe_call (Frame.line?_of_todo htodo) ?_
  intro name vs g hname hvs hfind m₁ hm₁
  cases hname
  cases hvs
  obtain ⟨hundef, hhost⟩ := hP.allocator g hfind
  refine ⟨fun hdef => Bool.noConfusion (hundef.symm.trans hdef), fun _ host hlookup => ?_⟩
  rw [hhost] at hlookup
  cases hlookup
  refine safe_header hp hκ (fr.reg_set_cases r _) (hfr.registers.set trivial) (Frame.todo_set htodo _ _) ?_
  intro fr₅ m₅ hm₅ hfunction hdst hregs htodo₅
  refine ih m₅ (by omega) _ _ _ _ κ (hM.make.mono (by omega))
    ⟨hfunction ▸ hfr.function, hregs, htodo₅.symm ▸ hls⟩ ?_
  rw [hdst]
  exact hrest

/-- A run of tame code comes to a sound end. -/
theorem Program.safe (hP : Program c o ds) (n : Nat) : TameSafe c o n := by
  induction n using Nat.strongRecOn with
  | ind n ih =>
    intro M fr rest k κ hM hfr hrest
    generalize htodo : fr.todo = lines
    have hcode := htodo ▸ hfr.code
    cases hcode with
    | nil =>
      refine safe_of_no_line ?_
      rw [Frame.line?_eq, ← List.head?_drop]
      exact congrArg List.head? htodo
    | cons hl hls => exact hP.safe_line ih hM hfr hrest htodo hl hls
    | alloc hp hκ hls => exact hP.safe_alloc ih hM hfr hrest hp hκ htodo hls

theorem tidy_empty : Tidy o {} 0 :=
  ⟨⟨fun _ hx => absurd hx (Nat.not_lt_zero _), rfl⟩, fun _ hx => absurd hx (Nat.not_lt_zero _),
    fun _ hv => absurd hv (Array.not_mem_empty _), fun _ _ => trivial⟩

/-- The run of the whole program comes to a sound end. -/
theorem Program.run_sound (hP : Program c o ds) : (run c o.entry []).1.Sound (run c o.entry []).2 := by
  cases hfind : c.module.find? o.entry with
  | none =>
    simp only [run, hfind]
    trivial
  | some f =>
    obtain ⟨hdef, κ, hf⟩ := hP.entry f hfind
    simp only [run, hfind]
    refine Outcome.sound_of_after ?_
    rw [after_bind]
    refine after_invoke (fun _ _ calls events => ?_) (fun hundef => ?_) (fun v M' hv => hv)
    · exact hP.safe c.fuel _ _ [] _ κ (tidy_empty.grow f) (.enter hf fun v hv => absurd hv List.not_mem_nil)
        (.nil _) calls events
    · rw [hdef] at hundef
      cases hundef

end

end TypedScript.Machine
