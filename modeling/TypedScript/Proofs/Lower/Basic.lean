import TypedScript.Proofs.Ast.Linked
import TypedScript.Proofs.Lower.Invariant

/-!
# Primitives keep the invariant

One rule for each primitive of lowering: commands, layouts, symbols, and scopes.
-/

namespace TypedScript.Lower

open TypedScript.Ast TypedScript.Ir TypedScript.Layout TypedScript.Machine

variable {inp : Input} {w : World} {s s' : State} {α β : Type}

/-! ### Instructions -/

/-- An instruction that does not touch counts was appended. -/
theorem Inv.instr (h : Inv inp w s) {i : Instr} (hi : TameInstr inp.options w.marks i) :
    ∀ m, Built (s.commands.push (.instr i)) m → Sketched inp.options (marksAfter w.marks i) s.symbols m := by
  intro m hm
  obtain ⟨m₀, hm₀, happly⟩ := built_push.1 hm
  exact (h.sketched m₀ hm₀).instr happly hi

/-- The register that was given out last is marked. -/
theorem clean_last (o : Options) (κ : Marks) : Clean o (κ ++ [true]) (.reg κ.length) := by simp [Clean]

theorem keeps_emitValue {i : Instr} (hi : TameInstr inp.options w.marks i) (hy : i.yieldsValue = true) :
    Keeps inp w (emitValue i) fun w' v => Clean inp.options w'.marks v := by
  refine .of_runs fun s hs v s' hrun => ?_
  obtain ⟨_, t, hemit, hreg⟩ := runs_bind.1 hrun
  obtain rfl := runs_modify.1 hemit
  obtain ⟨rfl, rfl⟩ := runs_modifyGet.1 hreg
  have hκ : marksAfter w.marks i = w.marks ++ [true] := by simp [marksAfter, hy]
  have hcs := hs.instr hi
  rw [hκ] at hcs
  refine ⟨{ w with marks := w.marks ++ [true] }, ⟨List.prefix_append _ _, List.prefix_rfl, rfl⟩, ?_, ?_⟩
  · exact hs.command (List.prefix_append _ _) hcs (by simp [hs.registers])
  · rw [hs.registers]
    exact clean_last _ _

theorem rests_emitEffect {i : Instr} (hi : TameInstr inp.options w.marks i) (hy : i.yieldsValue = false) :
    Rests inp w (emitEffect i) fun _ => True := by
  have hκ : marksAfter w.marks i = w.marks := by simp [marksAfter, hy]
  have hemit : Rests inp w (emit (.instr i)) fun _ => True := by
    refine .update fun s hs => ?_
    have hcs := hs.instr hi
    rw [hκ] at hcs
    exact { hs with sketched := hcs }
  refine hemit.rest fun _ _ => ?_
  split
  · exact .update fun s hs => { hs with }
  · exact .pure ⟨rfl, trivial⟩

theorem keeps_alloca (type : Ir.Ty) : Keeps inp w (alloca type) fun w' v => Clean inp.options w'.marks v := by
  refine .of_runs fun s hs v s' hrun => ?_
  obtain ⟨_, t, hemit, hreg⟩ := runs_bind.1 hrun
  obtain rfl := runs_modify.1 hemit
  obtain ⟨rfl, rfl⟩ := runs_modifyGet.1 hreg
  refine ⟨{ w with marks := w.marks ++ [true] }, ⟨List.prefix_append _ _, List.prefix_rfl, rfl⟩, ?_, ?_⟩
  · refine hs.command (List.prefix_append _ _) (fun m hm => ?_) (by simp [hs.registers])
    obtain ⟨m₀, hm₀, happly⟩ := built_push.1 hm
    exact (hs.sketched m₀ hm₀).alloca happly
  · rw [hs.registers]
    exact clean_last _ _

/-- A command that leaves the functions alone. -/
theorem rests_emit {c : Command}
    (hc : ∀ (m m' : Module) κ symbols, m.apply c = .ok m' → Sketched inp.options κ symbols m →
      Sketched inp.options κ symbols m') : Rests inp w (emit c) fun _ => True := by
  refine .update fun s hs => { hs with sketched := fun m hm => ?_ }
  obtain ⟨m₀, hm₀, happly⟩ := built_push.1 hm
  exact hc m₀ m _ _ happly (hs.sketched m₀ hm₀)

theorem rests_constant (v : Operand) : Rests inp w (emit (.constant v)) fun _ => True :=
  rests_emit fun _ _ _ _ happly h => by cases happly; exact h

theorem rests_declareStruct (str : Struct) : Rests inp w (emit (.declareStruct str)) fun _ => True :=
  rests_emit fun _ _ _ _ happly h => by cases happly; exact h.congr rfl rfl

theorem rests_setInsert (block : Nat) : Rests inp w (setInsert block) fun _ => True := by
  have hemit : Rests inp w (emit (.setInsert block)) fun _ => True :=
    rests_emit fun _ _ _ _ happly h => by cases happly; exact h.congr rfl rfl
  exact hemit.rest fun _ _ => .update fun s hs => { hs with }

theorem rests_newBlock (name : String) : Rests inp w (newBlock name) fun _ => True := by
  refine .read fun s₀ _ => ?_
  have hemit : Rests inp w (emit (.newBlock name)) fun _ => True := rests_emit fun _ _ _ _ happly h =>
    h.newBlock happly
  refine hemit.rest fun _ _ => ?_
  have hmod : Rests inp w (modify fun s => { s with blocks := s₀.blocks + 1 } : LowerM Unit) fun _ => True :=
    .update fun s hs => { hs with }
  exact hmod.rest fun _ _ => .pure ⟨rfl, trivial⟩

theorem rests_store {addr v : Operand} (ha : Clean inp.options w.marks addr) (hv : Clean inp.options w.marks v) :
    Rests inp w (store addr v) fun _ => True := rests_emitEffect ⟨ha, hv⟩ rfl

theorem rests_br (block : Nat) : Rests inp w (br block) fun _ => True := rests_emitEffect trivial rfl

theorem rests_condBr (c : Operand) (b b' : Nat) : Rests inp w (condBr c b b') fun _ => True :=
  rests_emitEffect trivial rfl

theorem rests_ret {v : Operand} (h : Clean inp.options w.marks v) : Rests inp w (ret v) fun _ => True := by
  unfold ret
  split
  · exact rests_emitEffect trivial rfl
  · exact rests_emitEffect h rfl

theorem rests_noteAttribute (key value : String) : Rests inp w (noteAttribute key value) fun _ => True :=
  .update fun _ hs => { hs with }

/-! ### Layouts -/

theorem located_ne {e : Error} (h : e ≠ .missingParameter) (span : Source.Span) : e.located span ≠
    .missingParameter := by
  unfold Error.located
  split
  · exact nofun
  · exact nofun
  · exact nofun
  · exact h

/-- The computation does nothing but make layouts. -/
structure Surveys (act : LowerM α) : Prop where
  run : ∀ {s a s'}, Runs act s a s' → ∃ r, s' = { s with registry := r } ∧ s.registry.Extends r
  fail : ∀ {s e s'}, Fails act s e s' → s'.commands = s.commands ∧ e ≠ .missingParameter

namespace Surveys

variable {act : LowerM α}

theorem pure (a : α) : Surveys (pure a : LowerM α) where
  run h := by obtain ⟨-, rfl⟩ := runs_pure.1 h; exact ⟨_, rfl, .refl _⟩
  fail h := (not_fails_pure h).elim

theorem throw {e : Error} (he : e ≠ .missingParameter) : Surveys (throw e : LowerM α) where
  run h := (runs_throw h).elim
  fail h := by obtain ⟨rfl, rfl⟩ := fails_throw.1 h; exact ⟨rfl, he⟩

theorem bind {f : α → LowerM β} (h : Surveys act) (hf : ∀ a, Surveys (f a)) : Surveys (act >>= f) where
  run hrun := by
    obtain ⟨a, t, hact, hfrun⟩ := runs_bind.1 hrun
    obtain ⟨r, rfl, hr⟩ := h.run hact
    obtain ⟨r', rfl, hr'⟩ := (hf a).run hfrun
    exact ⟨r', rfl, hr.trans hr'⟩
  fail hfail := by
    rcases fails_bind.1 hfail with hact | ⟨a, t, hact, hfail⟩
    · exact h.fail hact
    · obtain ⟨r, rfl, -⟩ := h.run hact
      have hrest := (hf a).fail hfail
      exact hrest

theorem locate {span : Source.Span} (h : Surveys act) : Surveys (locate span act) where
  run hrun := h.run (runs_locate.1 hrun)
  fail hfail := by
    obtain ⟨e₀, hact, rfl⟩ := fails_locate hfail
    exact ⟨(h.fail hact).1, located_ne (h.fail hact).2 span⟩

theorem mapM {f : β → LowerM α} (h : ∀ b, Surveys (f b)) (xs : List β) : Surveys (xs.mapM f) := by
  induction xs with
  | nil =>
    rw [List.mapM_nil]
    exact pure _
  | cons x xs ih =>
    rw [List.mapM_cons]
    exact (h x).bind fun _ => ih.bind fun _ => pure _

theorem rests (h : Surveys act) : Rests inp w act fun _ => True := by
  refine .of_runs fun s hs a s' hrun => ?_
  obtain ⟨r, rfl, hr⟩ := h.run hrun
  exact ⟨w, le_refl w, { hs with layouts := hr.placed hs.layouts }, rfl, trivial⟩

end Surveys

theorem surveys_ofLayout {act : Registry.LayoutM α} (hact : Registry.Adds act) : Surveys (ofLayout act) where
  run h := ⟨_, (runs_ofLayout h).2, hact _⟩
  fail h := by
    rcases fails_bind.1 h with h | ⟨_, t, hget, h₁⟩
    · exact (not_fails_get h).elim
    obtain ⟨rfl, rfl⟩ := runs_get.1 hget
    rcases hr : act.run.run t.registry with ⟨out, r⟩
    simp only [hr] at h₁
    rcases fails_bind.1 h₁ with h₂ | ⟨_, u, hmod, hout⟩
    · exact (not_fails_modify h₂).elim
    obtain rfl := runs_modify.1 hmod
    cases out with
    | error e =>
      obtain ⟨rfl, rfl⟩ := fails_throw.1 hout
      exact ⟨rfl, nofun⟩
    | ok b => exact (not_fails_pure hout).elim

theorem surveys_repOf (inp : Input) (id : Nat) : Surveys (repOf inp id) := by
  unfold repOf
  dsimp only
  split
  · exact .throw nofun
  split
  · exact .pure _
  · exact (surveys_ofLayout (Registry.adds_resolve _ _)).locate

theorem surveys_signature (inp : Input) (type : Nat) (span : Source.Span) : Surveys (signature inp type span) := by
  unfold signature
  split
  · refine (Surveys.mapM (fun p => ?_) _).bind fun _ => ?_
    · exact (surveys_ofLayout (Registry.adds_resolve _ _)).locate
    · exact (surveys_ofLayout (Registry.adds_resolve _ _)).locate.bind fun _ => .pure _
  · exact .throw fun h => by cases h

theorem rests_repOf (id : Nat) : Rests inp w (repOf inp id) fun _ => True := (surveys_repOf inp id).rests

theorem rests_signature (type : Nat) (span : Source.Span) : Rests inp w (signature inp type span) fun _ => True :=
  (surveys_signature inp type span).rests

theorem rests_fieldOf {d : Descriptor} (h : d.IsPlaced) (name : String) :
    Rests inp w (fieldOf d name) fun f => f.slot ≠ countSlot := by
  unfold fieldOf
  split
  · rename_i f hf
    exact .pure ⟨rfl, h.field hf⟩
  · exact .throw trivial

/-! ### Symbols -/

theorem lookup_symbolsAfter_self (symbols : List (String × Sig)) (name : String) (sig : Sig) :
    ((symbolsAfter symbols name sig).lookup name).isSome := by
  unfold symbolsAfter
  split
  · assumption
  · simp

/-- What was declared stays as it is. -/
theorem lookup_symbolsAfter {symbols : List (String × Sig)} {name : String} (sig : Sig) {name' : String}
    (h : (symbols.lookup name').isSome) : (symbolsAfter symbols name sig).lookup name' = symbols.lookup name' := by
  unfold symbolsAfter
  split
  · rfl
  · rename_i hn
    have hne : (name' == name) = false := by
      simp only [beq_eq_false_iff_ne]
      rintro rfl
      exact hn h
    rw [List.lookup_cons, hne]

theorem SoundCodes.declare {o : Options} {codes : List (Nat × String)} {symbols : List (String × Sig)}
    (h : SoundCodes o codes symbols) {name : String} {sig : Sig} (hp : name ∉ reservedNames o → sig.params ≠ []) :
    SoundCodes o codes (symbolsAfter symbols name sig) where
  free := h.free
  declared fn n hn := by rw [lookup_symbolsAfter sig (h.declared fn n hn)]; exact h.declared fn n hn
  params n hn hfree := by
    by_cases hold : (symbols.lookup n).isSome
    · unfold paramCount
      rw [lookup_symbolsAfter sig hold]
      exact h.params n hold hfree
    · unfold symbolsAfter at hn ⊢
      split
      · rename_i hname
        rw [if_pos hname] at hn
        exact absurd hn hold
      · rename_i hname
        rw [if_neg hname, List.lookup_cons] at hn
        by_cases hnn : n = name
        · subst hnn
          simpa [paramCount] using List.length_pos_iff.2 (hp hfree)
        · have hne : (n == name) = false := by simpa using hnn
          rw [hne] at hn
          exact absurd hn hold
  helpers n hn := by
    rw [lookup_symbolsAfter sig (by rw [h.helpers n hn]; rfl)]
    exact h.helpers n hn

theorem runs_declareFunc {name : String} {sig : Sig} {u : Unit} (h : Runs (declareFunc name sig) s u s') :
    s' = { s with
      commands := s.commands.push (.declareFunc name sig)
      symbols := symbolsAfter s.symbols name sig } := by
  obtain ⟨_, t, hemit, hmod⟩ := runs_bind.1 h
  obtain rfl := runs_modify.1 hemit
  obtain rfl := runs_modify.1 hmod
  unfold symbolsAfter
  dsimp only
  split <;> rfl

/-- A function was declared. -/
theorem Inv.declareFunc (h : Inv inp w s) {name : String} {sig : Sig}
    (hp : name ∉ reservedNames inp.options → sig.params ≠ []) :
    Inv inp w { s with
      commands := s.commands.push (.declareFunc name sig), symbols := symbolsAfter s.symbols name sig } where
  sketched m hm := by
    obtain ⟨m₀, hm₀, happly⟩ := built_push.1 hm
    exact (h.sketched m₀ hm₀).declareFunc happly
  registers := h.registers
  env := h.env
  layouts := h.layouts
  owners := h.owners
  nodes := h.nodes
  codes := h.codes.declare hp
  begun := h.begun
  queue := h.queue

/-- The signature of a function has at least one parameter. -/
theorem params_of_signature {type : Nat} {span : Source.Span} {out : Sig × Rep × List Rep}
    (h : Runs (signature inp type span) s out s') : out.1.params ≠ [] := by
  unfold signature at h
  split at h
  · obtain ⟨_, _, -, h⟩ := runs_bind.1 h
    obtain ⟨_, _, -, h⟩ := runs_bind.1 h
    obtain ⟨rfl, -⟩ := runs_pure.1 h
    exact List.cons_ne_nil _ _
  · exact (runs_throw h).elim

/-- A function has got a symbol. -/
theorem Inv.addCode (h : Inv inp w s) {fn : Nat} {name : String} (hnew : s.codes.lookup fn = none)
    (hfree : name ∉ reservedNames inp.options) (hdecl : (s.symbols.lookup name).isSome) :
    Inv inp w { s with codes := (fn, name) :: s.codes } := by
  have hlookup : ∀ n code, List.lookup n ((fn, name) :: s.codes) = some code →
      code = name ∨ s.codes.lookup n = some code := by
    intro n code hn
    rw [List.lookup_cons] at hn
    split at hn
    · exact .inl (Option.some.inj hn).symm
    · exact .inr hn
  have hstay : ∀ n code, s.codes.lookup n = some code → List.lookup n ((fn, name) :: s.codes) = some code := by
    intro n code hn
    have hne : (n == fn) = false := by
      simp only [beq_eq_false_iff_ne]
      rintro rfl
      rw [hnew] at hn
      cases hn
    rw [List.lookup_cons, hne]
    exact hn
  refine { h with codes := ⟨fun n code hn => ?_, fun n code hn => ?_, h.codes.params,
    h.codes.helpers⟩, begun := ?_, queue := ?_ }
  · rcases hlookup n code hn with rfl | hold
    · exact hfree
    · exact h.codes.free n code hold
  · rcases hlookup n code hn with rfl | hold
    · exact hdecl
    · exact h.codes.declared n code hold
  · intro n hn
    refine (h.begun n hn).imp_right fun hsome => ?_
    obtain ⟨code, hcode⟩ := Option.isSome_iff_exists.1 hsome
    exact Option.isSome_iff_exists.2 ⟨code, hstay n code hcode⟩
  · exact ⟨h.queue.nodup, h.queue.node, fun p hp => hstay _ _ (h.queue.code p hp)⟩

/-- The symbol of a function is there from then on; no function waits because of it. -/
theorem runs_codeFor {fn : Nat} {name : String} (hfree : codeName inp.tree fn ∉ reservedNames inp.options)
    (hs : Inv inp w s) (h : Runs (codeFor inp fn) s name s') :
    Inv inp w s' ∧ s'.codes.lookup fn = some name ∧ s'.queue = s.queue := by
  obtain ⟨s₀, t, hget, hrest⟩ := runs_bind.1 h
  obtain ⟨rfl, rfl⟩ := runs_get.1 hget
  split at hrest
  · rename_i hname
    obtain ⟨rfl, rfl⟩ := runs_pure.1 hrest
    exact ⟨hs, hname, rfl⟩
  · rename_i hnone
    obtain ⟨out, t₁, hsig, hrest⟩ := runs_bind.1 hrest
    have hparams := params_of_signature hsig
    obtain ⟨r, rfl, hr⟩ := (surveys_signature inp _ _).run hsig
    obtain ⟨_, t₂, hdecl, hrest⟩ := runs_bind.1 hrest
    obtain rfl := runs_declareFunc hdecl
    obtain ⟨_, t₃, hmod, hrest⟩ := runs_bind.1 hrest
    obtain rfl := runs_modify.1 hmod
    obtain ⟨rfl, rfl⟩ := runs_pure.1 hrest
    have hlays : Inv inp w { t with registry := r } := { hs with layouts := hr.placed hs.layouts }
    refine ⟨(hlays.declareFunc fun _ => hparams).addCode hnone hfree (lookup_symbolsAfter_self _ _ _), ?_, rfl⟩
    simp

theorem rests_codeFor {fn : Nat} (hfree : codeName inp.tree fn ∉ reservedNames inp.options) :
    Rests inp w (codeFor inp fn) fun name => name ∉ reservedNames inp.options := by
  refine .of_runs fun s hs name s' hrun => ?_
  obtain ⟨hs', hname, -⟩ := runs_codeFor hfree hs hrun
  exact ⟨w, le_refl w, hs', rfl, hs'.codes.free fn name hname⟩

/-- A function waits from when its symbol is first needed. -/
theorem rests_enqueue {fn scope : Nat} (hfun : inp.tree.isFunction fn = true)
    (hfree : codeName inp.tree fn ∉ reservedNames inp.options) :
    Rests inp w (enqueue inp fn scope) fun name => name ∉ reservedNames inp.options := by
  obtain ⟨f, hf, -⟩ := Tree.exists_form_of_isFunction hfun
  have hfn : fn ≠ 0 := Tree.ne_zero_of_form hf
  refine .of_runs fun s hs name s' hrun => ?_
  obtain ⟨s₀, t, hget, hrest⟩ := runs_bind.1 hrun
  obtain ⟨rfl, rfl⟩ := runs_get.1 hget
  obtain ⟨code, t₁, hcode, hrest⟩ := runs_bind.1 hrest
  obtain ⟨ht₁, hlookup, hqueue⟩ := runs_codeFor hfree hs hcode
  have hname := ht₁.codes.free fn code hlookup
  dsimp only at hrest
  split at hrest
  · rename_i hseen
    obtain ⟨_, t₂, hmod, hrest⟩ := runs_bind.1 hrest
    obtain rfl := runs_modify.1 hmod
    obtain ⟨rfl, rfl⟩ := runs_pure.1 hrest
    have hnew : t.codes.lookup fn = none := by simpa using hseen
    have hnot : ¬ (fn = 0 ∨ (t.codes.lookup fn).isSome) := by simp [hfn, hnew]
    refine ⟨w, le_refl w, { ht₁ with queue := ⟨?_, fun p hp => ?_, fun p hp => ?_⟩ }, rfl, hname⟩
    · rw [hqueue, List.map_append, List.nodup_append]
      refine ⟨hs.queue.nodup, by simp, fun a ha b hb => ?_⟩
      obtain ⟨p, hp, rfl⟩ := List.mem_map.1 ha
      obtain rfl : b = fn := by simpa using hb
      have hold := hs.queue.code p hp
      rintro rfl
      rw [hnew] at hold
      cases hold
    · rcases List.mem_append.1 hp with hp | hp
      · exact ht₁.queue.node p hp
      · obtain rfl := List.mem_singleton.1 hp
        exact ⟨hfun, fun h => hnot (hs.begun fn (.inl h)), fun h => hnot (hs.begun fn (.inr h))⟩
    · rcases List.mem_append.1 hp with hp | hp
      · exact ht₁.queue.code p hp
      · obtain rfl := List.mem_singleton.1 hp
        exact hlookup
  · obtain ⟨rfl, rfl⟩ := runs_pure.1 hrest
    exact ⟨w, le_refl w, ht₁, rfl, hname⟩

/-! ### Scopes -/

theorem rests_modifyScope {scope : Nat} {f : Scope.Node → Scope.Node}
    (hf : ∀ node, SoundNode inp w node → (f node).function = node.function ∧ SoundNode inp w (f node)) :
    Rests inp w (modifyScope scope f) fun _ => True := .update fun _ hs => hs.modifyNode hf

theorem rests_defer {scope : Nat} {d : Scope.Deferred} (hd : Clean inp.options w.marks d.operand) :
    Rests inp w (defer scope d) fun _ => True := by
  refine .update fun _ hs => hs.modifyNode fun node hnode => ⟨rfl, { hnode with deferred := fun hn e he => ?_ }⟩
  rcases List.mem_append.1 he with he | he
  · exact hnode.deferred hn e he
  · obtain rfl := List.mem_singleton.1 he
    exact hd

/-- A scope of the function is opened. -/
theorem keeps_openChild {scope container function : Nat} (hf : function = w.fn) :
    Keeps inp w (openChild scope container function) fun w' n => w'.Inside n := by
  refine .changeGet fun s hs => ⟨{ w with owners := w.owners ++ [w.fn] }, ?_, ?_, hs.inside_openNode⟩
  · exact ⟨List.prefix_rfl, List.prefix_append _ _, rfl⟩
  · exact hs.openNode hf (.blank rfl rfl rfl rfl)

theorem keeps_openTransient {scope : Nat} (h : w.Inside scope) :
    Keeps inp w (openTransient scope) fun w' n => w'.Inside n := by
  refine .changeGet fun s hs => ⟨{ w with owners := w.owners ++ [w.fn] }, ?_, ?_, hs.inside_openNode⟩
  · exact ⟨List.prefix_rfl, List.prefix_append _ _, rfl⟩
  · exact hs.openNode (hs.function_of_inside h) (.blank rfl rfl rfl rfl)

end TypedScript.Lower
