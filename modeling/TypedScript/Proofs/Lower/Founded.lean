import TypedScript.Proofs.Layout.Distinct
import TypedScript.Proofs.Lower.Flow

/-!
# Where structs and callees come from

A command says for itself which struct it refers to and which function it calls with which signature. Lowering has
both from elsewhere: a struct is made of a layout of the registry, and the signature of a call of the type of what
is called, while the symbol is that of a function, whose own type gave the signature it was declared with.

* `Founded`: what stands behind a command.
* `Grounded`: what stands behind all that the state holds.
* `Founds`: a computation that succeeds keeps the state grounded, and its result has a property.
* `foundInstructions`: the part of the view that instructions have.
-/

namespace TypedScript.Lower

open TypedScript.Ast TypedScript.Ir TypedScript.Layout

variable {inp : Input} {s s' s'' : State} {α β : Type}

/-! ### Signatures -/

/-- The machine type of the values of a type. -/
def scalarOf (types : Ty.Interner) (type : Nat) : Scalar :=
  match types.resolved? type with
  | some .void => .void
  | some .bool => .i1
  | some (.int bits) => .ofBits bits
  | some .number => .f64
  | _ => .ptr

/-- The machine types of the result and of the parameters of the functions of a type. -/
def profile? (types : Ty.Interner) (type : Nat) : Option (Scalar × List Scalar) :=
  match types.resolved? type with
  | some (.func params result) => some (scalarOf types result, params.map (scalarOf types))
  | _ => none

theorem profile?_func {types : Ty.Interner} {type : Nat} {params : List Nat} {result : Nat}
    (h : types.resolved? type = some (.func params result)) :
    profile? types type = some (scalarOf types result, params.map (scalarOf types)) := by
  rw [profile?, h]

/-- The signature of the functions of a type. The environment comes first. -/
def sigOf? (types : Ty.Interner) (type : Nat) : Option Sig :=
  (profile? types type).map fun p => ⟨p.1, (Scalar.ptr : Ir.Ty) :: p.2.map Ir.Ty.scalar⟩

theorem irType_of_resolve {types : Ty.Interner} {type : Nat} {r : Registry} {rep : Rep}
    (h : ((Registry.resolve types type).run.run r).1 = .ok rep) : irType rep = scalarOf types type := by
  unfold Registry.resolve Registry.depthFor Registry.resolveFrom at h
  unfold scalarOf
  split at h
  case h_7 hobject =>
    rw [hobject]
    simp only [ExceptT.run_bind, StateT.run_bind] at h
    rcases hr : (Registry.layoutFrom types (2 * types.types.size + 3) type).run.run r with ⟨out, r'⟩
    rw [hr] at h
    cases out <;> cases h
    rfl
  case h_8 => cases h
  all_goals
    rename_i htype
    rw [htype]
    cases h
    rfl

theorem map_of_runs_mapM {γ : Type} {f : β → LowerM α} {g : α → γ} {k : β → γ}
    (hf : ∀ x s a s', Runs (f x) s a s' → g a = k x) {xs : List β} {ys : List α} (h : Runs (xs.mapM f) s ys s') :
    ys.map g = xs.map k := by
  induction xs generalizing s s' ys with
  | nil =>
    rw [List.mapM_nil] at h
    rw [(runs_pure.1 h).1]
    rfl
  | cons x xs ih =>
    rw [List.mapM_cons] at h
    obtain ⟨y, t, hy, h⟩ := runs_bind.1 h
    obtain ⟨ys', t', hys, h⟩ := runs_bind.1 h
    obtain ⟨rfl, -⟩ := runs_pure.1 h
    rw [List.map_cons, List.map_cons, hf x _ _ _ hy, ih hys]

/-- The signature that lowering finds for a type is that of its functions. -/
theorem sigOf?_of_signature {type : Nat} {span : Source.Span} {out : Sig × Rep × List Rep}
    (h : Runs (signature inp type span) s out s') : sigOf? inp.types type = some out.1 := by
  unfold signature at h
  have hirType (p : Nat) (s : State) (rep : Rep) (s' : State)
      (h : Runs (locate span (ofLayout (Registry.resolve inp.types p))) s rep s') : irType rep =
      scalarOf inp.types p :=
    irType_of_resolve (runs_ofLayout (runs_locate.1 h)).1
  split at h
  · rename_i params result htype
    obtain ⟨reps, t, hreps, h⟩ := runs_bind.1 h
    obtain ⟨rep, t', hrep, h⟩ := runs_bind.1 h
    obtain ⟨rfl, -⟩ := runs_pure.1 h
    rw [sigOf?, profile?_func htype]
    have hparams := map_of_runs_mapM (g := irType) (k := scalarOf inp.types) hirType hreps
    simp only [Option.map_some, ← hparams, List.map_map, ← hirType _ _ _ _ hrep]
    rfl
  · exact (runs_throw h).elim

/-! ### What stands behind a command -/

/-- What an expression evaluates to if it is an assignment, however often: what is assigned last. -/
inductive Assigned (t : Tree) : Nat → Nat → Prop
  | self (id : Nat) : Assigned t id id
  | assign {id target value x : Nat} (h : t.form? id = some (.assign target value)) (hx : Assigned t value x) :
      Assigned t id x

/-- The expression stands for a function: for itself, or for the one that its name is bound to. A name that is not
bound may stand for any. -/
inductive Denotes (inp : Input) (id fn : Nat) : Prop
  | arrow {params : List Nat} {result : Option Nat} {body : Nat}
      (h : inp.tree.form? id = some (.arrowFunc params result body))
    (hfn : fn = id)
  | bound {name : String} (h : inp.tree.form? id = some (.ident name)) (hdecl : inp.table.decl? id = some fn)
    (hfn : isNamedFunction inp.tree fn = true)
  | unbound {name : String} (h : inp.tree.form? id = some (.ident name)) (hdecl : inp.table.decl? id = none)

/-- The function is one of the runtime that is called, with its signature. -/
def IsRuntime (o : Options) (name : String) (sig : Sig) : Prop :=
  name = o.allocate ∧ sig = allocateSig ∨ name ∈ o.release :: helperNames ∧ sig = helperSig

/-- The expression stands for a function with the symbol. -/
def StandsFor (inp : Input) (codes : List (Nat × String)) (id : Nat) (name : String) : Prop :=
  ∃ x fn, Assigned inp.tree id x ∧ Denotes inp x fn ∧ codes.lookup fn = some name

/-- The symbol is called with a signature for a reason: it is of the runtime, or the callee of a call stands for
it. -/
def IsCallable (inp : Input) (codes : List (Nat × String)) (name : String) (sig : Sig) : Prop :=
  IsRuntime inp.options name sig ∨ ∃ id callee args, inp.tree.form? id = some (.call callee args) ∧
    StandsFor inp codes callee name ∧ sigOf? inp.types (typeOf inp callee) = some sig

/-- The struct is the one that all objects start with, or that of a layout. -/
def IsStruct (r : Registry) (t : Struct) : Prop := t = headerStruct ∨ ∃ d, Known r d ∧ t = structOf d

/-- What stands behind a command: a layout behind a struct, which is declared before it is referred to, and a
function behind a symbol that is called. -/
def Founded (inp : Input) (r : Registry) (codes : List (Nat × String)) (before : List Command) : Command → Prop
  | .declareStruct t => IsStruct r t
  | .instr (.fieldAddr t _ _) => .declareStruct t ∈ before
  | .instr (.call sig (.func name) _) => IsCallable inp codes name sig
  | _ => True

/-- A symbol was declared with the signature of the function that it belongs to. Nothing is said of that of the
entry, which is not called. -/
def IsDeclared (inp : Input) (codes : List (Nat × String)) (name : String) (sig : Sig) : Prop :=
  IsRuntime inp.options name sig ∨ name = inp.options.entry ∨
    ∃ fn, codes.lookup fn = some name ∧ sigOf? inp.types (typeOf inp fn) = some sig

/-- The scope has a layout of the registry, and its bindings of functions have their symbols. -/
structure Sited (inp : Input) (r : Registry) (codes : List (Nat × String)) (n : Scope.Node) : Prop where
  layout : ∀ d, n.layout = some d → d ∈ r.all
  bindings : ∀ b ∈ n.bindings, b.kind.isFunction = true →
    isNamedFunction inp.tree b.decl = true ∧ codes.lookup b.decl = some b.code

/-- Something stands behind all that the state holds. -/
structure Grounded (inp : Input) (s : State) : Prop where
  made : s.registry.Made inp.types
  nodes : ∀ n ∈ s.chain.nodes, Sited inp s.registry s.codes n
  commands : ∀ i c, s.commands[i]? = some c → Founded inp s.registry s.codes (s.commands.toList.take i) c
  /-- The structs that count as declared are declared. -/
  header : .declareStruct headerStruct ∈ s.commands
  structs : ∀ t ∈ s.structs, ∃ d, Known s.registry d ∧ d.tag = t ∧ .declareStruct (structOf d) ∈ s.commands
  symbols : ∀ name sig, s.symbols.lookup name = some sig → IsDeclared inp s.codes name sig
  queue : ∀ p ∈ s.queue, inp.tree.isFunction p.node = true

/-- Layouts, symbols of functions and commands have been added. -/
structure Grows (s s' : State) : Prop where
  layouts : s.registry.all <+: s'.registry.all
  codes : ∀ fn name, s.codes.lookup fn = some name → s'.codes.lookup fn = some name
  commands : ∀ c ∈ s.commands, c ∈ s'.commands

namespace Grows

theorem refl (s : State) : Grows s s := ⟨List.prefix_rfl, fun _ _ => id, fun _ => id⟩

theorem trans (h : Grows s s') (h' : Grows s' s'') : Grows s s'' where
  layouts := h.layouts.trans h'.layouts
  codes fn name hn := h'.codes fn name (h.codes fn name hn)
  commands c hc := h'.commands c (h.commands c hc)

/-- Neither layouts nor symbols nor commands have changed. -/
theorem of_eq (hregistry : s'.registry = s.registry) (hcodes : s'.codes = s.codes)
    (hcommands : s'.commands = s.commands) :
    Grows s s' := ⟨hregistry ▸ List.prefix_rfl, hcodes ▸ fun _ _ => id, hcommands ▸ fun _ => id⟩

/-- A command was added, and nothing else that counts. -/
theorem of_push {c : Command} (hregistry : s'.registry = s.registry) (hcodes : s'.codes = s.codes)
    (hcommands : s'.commands = s.commands.push c) : Grows s s' :=
  ⟨hregistry ▸ List.prefix_rfl, hcodes ▸ fun _ _ => id, hcommands ▸ fun _ hc => Array.mem_push.2 (.inl hc)⟩

end Grows

theorem IsStruct.mono {r r' : Registry} {t : Struct} (h : IsStruct r t) (hr : r.all <+: r'.all) :
    IsStruct r' t := by
  rcases h with h | ⟨d, hd, ht⟩
  · exact .inl h
  · exact .inr ⟨d, hd.mono hr, ht⟩

theorem StandsFor.grow {id : Nat} {name : String} (h : StandsFor inp s.codes id name) (hg : Grows s s') :
    StandsFor inp s'.codes id name := by
  obtain ⟨x, fn, hx, hfn, hname⟩ := h
  exact ⟨x, fn, hx, hfn, hg.codes fn name hname⟩

theorem IsCallable.grow {name : String} {sig : Sig} (h : IsCallable inp s.codes name sig) (hg : Grows s s') :
    IsCallable inp s'.codes name sig := by
  rcases h with h | ⟨id, callee, args, hform, hstands, hsig⟩
  · exact .inl h
  · exact .inr ⟨id, callee, args, hform, hstands.grow hg, hsig⟩

/-- A command keeps what stands behind it. -/
theorem Founded.grow {before : List Command} {c : Command} (h : Founded inp s.registry s.codes before c)
    (hg : Grows s s') :
    Founded inp s'.registry s'.codes before c := by
  unfold Founded at h ⊢
  split at h
  · exact IsStruct.mono h hg.layouts
  · exact h
  · exact IsCallable.grow h hg
  · trivial

theorem IsDeclared.grow {name : String} {sig : Sig} (h : IsDeclared inp s.codes name sig) (hg : Grows s s') :
    IsDeclared inp s'.codes name sig := by
  rcases h with h | h | ⟨fn, hfn, hsig⟩
  · exact .inl h
  · exact .inr (.inl h)
  · exact .inr (.inr ⟨fn, hg.codes fn name hfn, hsig⟩)

theorem Sited.grow {n : Scope.Node} (h : Sited inp s.registry s.codes n) (hg : Grows s s') :
    Sited inp s'.registry s'.codes n where
  layout d hd := hg.layouts.subset (h.layout d hd)
  bindings b hb hfun := (h.bindings b hb hfun).imp_right (hg.codes _ _)

/-- A scope that was just opened. -/
theorem Sited.blank {r : Registry} {codes : List (Nat × String)} {n : Scope.Node} (hl : n.layout = none)
    (hb : n.bindings = []) : Sited inp r codes n where
  layout d hd := by
    rw [hl] at hd
    cases hd
  bindings b hmem := by
    rw [hb] at hmem
    cases hmem

/-! ### Grounded states -/

namespace Grounded

/-- What is new in a state has something behind it. -/
theorem grow (h : Grounded inp s) (hg : Grows s s') (hmade : s'.registry.Made inp.types)
    (hnodes : ∀ n ∈ s'.chain.nodes, n ∈ s.chain.nodes ∨ Sited inp s'.registry s'.codes n)
    (hcommands : s'.commands = s.commands ∨
      ∃ c, s'.commands = s.commands.push c ∧ Founded inp s'.registry s'.codes s.commands.toList c)
    (hstructs : ∀ t ∈ s'.structs, t ∈ s.structs ∨
      ∃ d, Known s'.registry d ∧ d.tag = t ∧ .declareStruct (structOf d) ∈ s'.commands)
    (hsymbols : ∀ name sig, s'.symbols.lookup name = some sig →
      s.symbols.lookup name = some sig ∨ IsDeclared inp s'.codes name sig)
    (hqueue : ∀ p ∈ s'.queue, p ∈ s.queue ∨ inp.tree.isFunction p.node = true) : Grounded inp s' where
  made := hmade
  nodes n hn := (hnodes n hn).elim (fun hold => (h.nodes n hold).grow hg) id
  commands i c hi := by
    rcases hcommands with hsame | ⟨c', hpush, hc'⟩
    · rw [hsame] at hi ⊢
      exact (h.commands i c hi).grow hg
    · rw [hpush, Array.getElem?_push] at hi
      rw [hpush, Array.toList_push]
      split at hi
      · rename_i hlast
        obtain rfl := Option.some.inj hi
        rw [hlast, ← Array.length_toList, List.take_left]
        exact hc'
      · have hlt := (Array.getElem?_eq_some_iff.1 hi).1
        rw [List.take_append_of_le_length (by rw [Array.length_toList]; omega)]
        exact (h.commands i c hi).grow hg
  header := hg.commands _ h.header
  structs t ht := by
    rcases hstructs t ht with hold | hnew
    · obtain ⟨d, hd, htag, hmem⟩ := h.structs t hold
      exact ⟨d, hd.mono hg.layouts, htag, hg.commands _ hmem⟩
    · exact hnew
  symbols name sig hsig := (hsymbols name sig hsig).elim (fun hold => (h.symbols name sig hold).grow hg) id
  queue p hp := (hqueue p hp).elim (h.queue p) id

/-- Nothing has changed that counts. -/
theorem same (h : Grounded inp s) (hregistry : s'.registry = s.registry) (hchain : s'.chain = s.chain)
    (hcodes : s'.codes = s.codes) (hsymbols : s'.symbols = s.symbols) (hcommands : s'.commands = s.commands)
    (hstructs : s'.structs = s.structs) (hqueue : s'.queue = s.queue) : Grounded inp s' :=
  h.grow (.of_eq hregistry hcodes hcommands) (hregistry ▸ h.made) (fun _ hn => .inl (hchain ▸ hn)) (.inl hcommands)
    (fun _ ht => .inl (hstructs ▸ ht)) (fun _ _ hsig => .inl (hsymbols ▸ hsig)) fun _ hp => .inl (hqueue ▸ hp)

/-- A command has been added. -/
theorem push (h : Grounded inp s) {c : Command} (hc : Founded inp s.registry s.codes s.commands.toList c) :
    Grounded inp { s with commands := s.commands.push c } :=
  h.grow (.of_push rfl rfl rfl) h.made (fun _ => .inl) (.inr ⟨c, rfl, hc⟩) (fun _ => .inl) (fun _ _ => .inl)
    fun _ => .inl

/-- The scopes have changed. -/
theorem chain (h : Grounded inp s) {chain : Scope.Chain}
    (hnodes : ∀ n ∈ chain.nodes, n ∈ s.chain.nodes ∨ Sited inp s.registry s.codes n) : Grounded inp
    { s with chain } :=
  h.grow (.of_eq rfl rfl rfl) h.made hnodes (.inl rfl) (fun _ => .inl) (fun _ _ => .inl) fun _ => .inl

/-- Layouts have been made. -/
theorem registry (h : Grounded inp s) {r : Registry} (hr : r.Made inp.types) (hall : s.registry.all <+: r.all) :
    Grounded inp { s with registry := r } :=
  h.grow ⟨hall, fun _ _ => id, fun _ => id⟩ hr (fun _ => .inl) (.inl rfl) (fun _ => .inl) (fun _ _ => .inl)
    fun _ => .inl

/-- A struct that counts as declared is. -/
theorem declared (h : Grounded inp s) {d : Descriptor} (hd : Known s.registry d) (htag : d.tag ∈ s.structs) :
    .declareStruct (structOf d) ∈ s.commands := by
  obtain ⟨d', hd', htag', hmem⟩ := h.structs d.tag htag
  exact hd'.eq_of_tag h.made.isNumbered hd htag' ▸ hmem

theorem known_closure (h : Grounded inp s) : Known s.registry s.registry.closure := .inl h.made.isNumbered.closure

/-- The layout of a scope that is there, or stands for one that is missing. -/
theorem known_layout (h : Grounded inp s) (k : Nat) : Known s.registry ((s.chain.get k).layout.getD default) := by
  unfold Scope.Chain.get
  rw [Array.getD_eq_getD_getElem?]
  cases hk : s.chain.nodes[k]? with
  | none => exact .inr rfl
  | some node =>
    cases hd : node.layout with
    | none => exact .inr (by simp [hd])
    | some d => exact .inl (by simpa [hd] using (h.nodes node (Array.mem_of_getElem? hk)).layout d hd)

end Grounded

/-! ### Computations -/

/-- Lowering is looked at as long as it succeeds. -/
@[reducible]
def foundRegime (inp : Input) : StateRegime where
  Inv := Grounded inp
  Le _ _ := Grows
  Live _ := True
  Fault _ _ := True
  Allowed _ := True
  refl := .refl _
  trans := .trans
  any h := h
  fault _ _ := trivial
  located _ _ := trivial

/-- From the grounded state `s` on the computation leads to grounded states only, and the result has the property.
-/
abbrev Founds (inp : Input) (s : State) (act : LowerM α) (Q : State → α → Prop) : Prop :=
  (foundRegime inp).toRegime.Goes none s act Q

namespace Founds

variable {act : LowerM α} {Q : State → α → Prop}

theorem of_runs (h : Grounded inp s → ∀ a s', Runs act s a s' → Grounded inp s' ∧ Grows s s' ∧ Q s' a) :
    Founds inp s act Q := by
  refine fun _ => StateRegime.leads_of fun hs => ⟨fun a s' hrun => ?_, fun _ _ _ => trivial⟩
  obtain ⟨hs', hg, hq⟩ := h hs a s' hrun
  exact ⟨hs', hg, trivial, hq⟩

theorem run (h : Founds inp s act Q) (hs : Grounded inp s) {a : α} (hrun : Runs act s a s') :
    Grounded inp s' ∧ Grows s s' ∧ Q s' a := by
  obtain ⟨hs', hg, -, hq⟩ := StateRegime.run (h trivial) hs hrun
  exact ⟨hs', hg, hq⟩

theorem grow {f : State → State} {Q : State → Unit → Prop} (h : Grounded inp s → Grounded inp (f s))
    (hg : Grows s (f s)) (hQ : Q (f s) ()) : Founds inp s (modify f) Q := .change h hg id hQ

/-- What a step says of its item stays true, so it is true of all items in the end. -/
theorem forM_all {f : β → LowerM PUnit} {P : State → β → Prop} (hP : ∀ s s' x, Grows s s' → P s x → P s' x)
    {xs : List β} (h : ∀ x ∈ xs, ∀ s', Grows s s' → Founds inp s' (f x) fun s'' _ => P s'' x) :
    Founds inp s (xs.forM f) fun s' _ => ∀ x ∈ xs, P s' x := by
  induction xs generalizing s with
  | nil => exact .pure fun _ hx => absurd hx List.not_mem_nil
  | cons x xs ih =>
    refine (h x List.mem_cons_self s (.refl s)).bind fun s₁ _ hg hx => ?_
    refine (ih fun y hy s₂ hg' => h y (List.mem_cons_of_mem x hy) s₂ (hg.trans hg')).imp fun s₂ _ hg' hxs y hy => ?_
    rcases List.mem_cons.1 hy with rfl | hy
    · exact hP s₁ s₂ y hg' hx
    · exact hxs y hy

end Founds

/-! ### Commands -/

theorem founds_emit {c : Command} (hc : Founded inp s.registry s.codes s.commands.toList c) :
    Founds inp s (emit c) fun s' _ => s' = { s with commands := s.commands.push c } :=
  .grow (fun h => h.push hc) (.of_push rfl rfl rfl) rfl

/-- A change of what has no bearing on layouts, scopes, symbols and commands. -/
theorem founds_note {f : State → State}
    (hf : (f s).registry = s.registry ∧ (f s).chain = s.chain ∧ (f s).codes = s.codes ∧ (f s).symbols = s.symbols ∧
    (f s).commands = s.commands ∧ (f s).structs = s.structs ∧ (f s).queue = s.queue) :
    Founds inp s (modify f) fun _ _ => True := by
  obtain ⟨hregistry, hchain, hcodes, hsymbols, hcommands, hstructs, hqueue⟩ := hf
  exact .grow (fun h => h.same hregistry hchain hcodes hsymbols hcommands hstructs hqueue)
    (.of_eq hregistry hcodes hcommands) trivial

/-- The symbol that an operand stands for. -/
def symbolOf? : Operand → Option String
  | .func name => some name
  | _ => none

theorem founds_newRegister : Founds inp s newRegister fun _ v => symbolOf? v = none :=
  .changeGet (fun h => h.same rfl rfl rfl rfl rfl rfl rfl) (.of_eq rfl rfl rfl) id rfl

theorem founds_emitValue {i : Instr} (hi : Founded inp s.registry s.codes s.commands.toList (.instr i)) :
    Founds inp s (emitValue i) fun _ v => symbolOf? v = none :=
  (founds_emit hi).bind fun _ _ _ _ => founds_newRegister

theorem founds_emitEffect {i : Instr} (hi : Founded inp s.registry s.codes s.commands.toList (.instr i)) :
    Founds inp s (emitEffect i) fun _ _ => True := by
  refine (founds_emit hi).bind fun _ _ _ _ => ?_
  split
  · exact founds_note ⟨rfl, rfl, rfl, rfl, rfl, rfl, rfl⟩
  · exact .pure trivial

/-- A function is called that has something behind it, or a pointer. -/
theorem founds_callDirect {sig : Sig} {callee : Operand}
    (h : ∀ name, symbolOf? callee = some name → IsCallable inp s.codes name sig)
    (args : List Operand) : Founds inp s (callDirect sig callee args) fun _ v => symbolOf? v = none := by
  refine founds_emitValue ?_
  cases callee with
  | func name => exact h name rfl
  | _ => trivial

/-- A function of the runtime is called. -/
theorem founds_callRuntime {name : String} {sig : Sig} (h : IsRuntime inp.options name sig) (args : List Operand) :
    Founds inp s (callDirect sig (.func name) args) fun _ v => symbolOf? v = none :=
  founds_callDirect (fun _ heq => Option.some.inj heq ▸ .inl h) args

theorem founds_ret (v : Operand) : Founds inp s (ret v) fun _ _ => True := by
  unfold ret
  split
  · exact founds_emitEffect trivial
  · exact founds_emitEffect trivial

theorem founds_alloca (type : Ir.Ty) : Founds inp s (alloca type) fun _ v => symbolOf? v = none :=
  (founds_emit (c := .alloca type) trivial).bind fun _ _ _ _ => founds_newRegister

theorem founds_newBlock (name : String) : Founds inp s (newBlock name) fun _ _ => True := by
  refine .here ((founds_emit (c := .newBlock name) trivial).bind fun s₁ _ _ _ => ?_)
  exact .bind (founds_note ⟨rfl, rfl, rfl, rfl, rfl, rfl, rfl⟩) fun _ _ _ _ => .pure trivial

theorem founds_setInsert (b : Nat) : Founds inp s (setInsert b) fun _ _ => True :=
  (founds_emit (c := .setInsert b) trivial).bind fun _ _ _ _ => founds_note ⟨rfl, rfl, rfl, rfl, rfl, rfl, rfl⟩

theorem founds_defineFunc (name : String) : Founds inp s (defineFunc name) fun _ _ => True := by
  refine (founds_emit (c := .define name) trivial).bind fun s₁ _ _ _ => .here ?_
  exact .bind (founds_note ⟨rfl, rfl, rfl, rfl, rfl, rfl, rfl⟩) fun _ _ _ _ => .pure trivial

/-! ### Layouts and symbols -/

theorem founds_resolve (type : Nat) :
    Founds inp s (ofLayout (Registry.resolve inp.types type)) fun _ _ => True := by
  refine .of_runs fun hs rep s' hrun => ?_
  obtain ⟨-, rfl⟩ := runs_ofLayout hrun
  have hall := (Registry.adds_resolve inp.types type s.registry).all
  exact ⟨hs.registry (hs.made.resolve type) hall, ⟨hall, fun _ _ => id, fun _ => id⟩, trivial⟩

theorem founds_fieldOf (d : Descriptor) (name : String) : Founds inp s (fieldOf d name) fun s' _ => s' = s := by
  unfold fieldOf
  split
  · exact .pure rfl
  · exact .throw trivial

theorem founds_repOf (id : Nat) : Founds inp s (repOf inp id) fun _ _ => True := by
  unfold repOf
  dsimp only
  split
  · exact .throw trivial
  split
  · exact .pure trivial
  · exact (founds_resolve _).locate

/-- The signature of a type is found, and no symbol gets another. -/
theorem founds_signature (type : Nat) (span : Source.Span) : Founds inp s (signature inp type span) fun s' out =>
    sigOf? inp.types type = some out.1 ∧ s'.codes = s.codes := by
  have hgoes : Founds inp s (signature inp type span) fun _ _ => True := by
    unfold signature
    split
    · refine (Regime.Goes.mapM (I := fun _ => True) (Q := fun _ _ => True) trivial (fun _ _ _ _ => id)
        fun p _ s₁ _ _ => ?_).bind fun s₁ reps _ _ => ?_
      · exact (founds_resolve p).locate.imp fun _ _ _ _ => ⟨trivial, trivial⟩
      · exact (founds_resolve _).locate.bind fun _ _ _ _ => .pure trivial
    · exact .throw trivial
  refine .of_runs fun hs out s' hrun => ?_
  obtain ⟨hs', hg, -⟩ := hgoes.run hs hrun
  obtain ⟨r, rfl, -⟩ := (surveys_signature inp type span).run hrun
  exact ⟨hs', hg, sigOf?_of_signature hrun, rfl⟩

theorem Grounded.declareFunc (h : Grounded inp s) {name : String} {sig : Sig}
    (hname : IsDeclared inp s.codes name sig) :
    Grounded inp { s with
      commands := s.commands.push (.declareFunc name sig), symbols := symbolsAfter s.symbols name sig } := by
  refine h.grow (.of_push rfl rfl rfl) h.made (fun _ => .inl) (.inr ⟨_, rfl, trivial⟩) (fun _ => .inl)
    (fun name' sig' hsig => ?_) fun _ => .inl
  rcases lookup_symbolsAfter_eq hsig with hold | ⟨rfl, rfl⟩
  · exact .inl hold
  · exact .inr hname

/-- A function is declared that is not of the program. -/
theorem founds_declareFunc {name : String} {sig : Sig}
    (h : IsRuntime inp.options name sig ∨ name = inp.options.entry) :
    Founds inp s (declareFunc name sig) fun s' _ => .declareFunc name sig ∈ s'.commands := by
  refine .of_runs fun hs u s' hrun => ?_
  obtain rfl := runs_declareFunc hrun
  exact ⟨hs.declareFunc (h.imp_right .inl), .of_push rfl rfl rfl, Array.mem_push_self⟩

/-- The symbol of a function is there from then on. If it is new, it is declared with the signature of the
function's type. -/
theorem founds_codeFor (fn : Nat) : Founds inp s (codeFor inp fn) fun s' code => s'.codes.lookup fn =
    some code := by
  refine .here ?_
  split
  · rename_i code hcode
    exact .pure hcode
  · rename_i hnew
    refine (founds_signature _ _).bind fun s₁ out _ hout => Founds.of_runs fun hs₁ code s' hrun => ?_
    obtain ⟨hsig, hcodes⟩ := hout
    rw [← hcodes] at hnew
    obtain ⟨_, t₁, hdecl, hrun₁⟩ := runs_bind.1 hrun
    obtain rfl := runs_declareFunc hdecl
    obtain ⟨_, t₂, hmod, hrun₂⟩ := runs_bind.1 hrun₁
    obtain rfl := runs_modify.1 hmod
    obtain ⟨rfl, rfl⟩ := runs_pure.1 hrun₂
    have hself : List.lookup fn ((fn, codeName inp.tree fn) :: s₁.codes) = some (codeName inp.tree fn) :=
      List.lookup_cons_self
    have hg : Grows s₁ { s₁ with
        commands := s₁.commands.push (.declareFunc (codeName inp.tree fn) out.1)
        symbols := symbolsAfter s₁.symbols (codeName inp.tree fn) out.1
        codes := (fn, codeName inp.tree fn) :: s₁.codes } :=
      ⟨List.prefix_rfl, fun _ _ => lookup_cons_of_code hnew, fun _ hc => Array.mem_push.2 (.inl hc)⟩
    refine ⟨hs₁.grow hg hs₁.made (fun _ => .inl) (.inr ⟨_, rfl, trivial⟩) (fun _ => .inl)
      (fun name sig hlookup => ?_) fun _ => .inl, hg, hself⟩
    rcases lookup_symbolsAfter_eq hlookup with hold | ⟨rfl, rfl⟩
    · exact .inl hold
    · exact .inr (.inr (.inr ⟨fn, hself, hsig⟩))

theorem founds_enqueue {fn : Nat} (hfn : inp.tree.isFunction fn = true) (scope : Nat) :
    Founds inp s (enqueue inp fn scope) fun s' code => s'.codes.lookup fn = some code := by
  refine .here ((founds_codeFor fn).bind fun s₁ code _ hcode => ?_)
  dsimp only
  split
  · refine .bind (Q := fun (s' : State) _ => s'.codes.lookup fn = some code)
      (Founds.grow (fun h => h.grow (.of_eq rfl rfl rfl) h.made (fun _ => .inl) (.inl rfl) (fun _ => .inl)
        (fun _ _ => .inl) fun p hp => ?_) (.of_eq rfl rfl rfl) hcode) fun _ _ _ hcode' => .pure hcode'
    rcases List.mem_append.1 hp with hp | hp
    · exact .inl hp
    · exact .inr (List.mem_singleton.1 hp ▸ hfn)
  · exact .pure hcode

/-! ### Objects -/

theorem founds_useStruct {d : Descriptor} (hd : Known s.registry d) :
    Founds inp s (useStruct d) fun s' t => .declareStruct t ∈ s'.commands := by
  refine .of_inv fun hs => .here ?_
  split
  · refine (founds_emit (c := .declareStruct (structOf d)) (.inr ⟨d, hd, rfl⟩)).bind fun s₁ _ _ hs₁ => ?_
    subst hs₁
    have hmem : .declareStruct (structOf d) ∈ s.commands.push (.declareStruct (structOf d)) := Array.mem_push_self
    refine .bind (Q := fun (s' : State) _ => .declareStruct (structOf d) ∈ s'.commands)
      (Founds.grow (fun h => h.grow (.of_eq rfl rfl rfl) h.made (fun _ => .inl) (.inl rfl) (fun t ht => ?_)
        (fun _ _ => .inl) fun _ => .inl) (.of_eq rfl rfl rfl) hmem) fun s₂ _ _ hs₂ => .pure hs₂
    rcases List.mem_cons.1 ht with rfl | ht
    · exact .inr ⟨d, hd, rfl, hmem⟩
    · exact .inl ht
  · rename_i hold
    exact .pure (hs.declared hd (by simpa using hold))

/-- A slot of an object is found by a struct that is declared by then. -/
theorem founds_slotAddr {t : Struct} (ht : .declareStruct t ∈ s.commands) (base : Operand) (slot : Nat) :
    Founds inp s (slotAddr t base slot) fun _ v => symbolOf? v = none :=
  founds_emitValue (i := .fieldAddr t base slot) (Array.mem_toList_iff.2 ht)

theorem founds_construct {d : Descriptor} (hd : Known s.registry d) :
    Founds inp s (construct inp d) fun _ v => symbolOf? v = none := by
  refine (founds_useStruct hd).bind fun s₁ t _ ht => ?_
  have hslot {s' : State} (hg : Grows s₁ s') (base : Operand) (slot : Nat) :
      Founds inp s' (slotAddr t base slot) fun _ v => symbolOf? v = none :=
    founds_slotAddr (hg.commands _ ht) base slot
  have hstore {s' : State} (addr v : Operand) : Founds inp s' (store addr v) fun _ _ => True :=
    founds_emitEffect trivial
  refine (founds_callRuntime (.inl ⟨rfl, rfl⟩) _).bind fun s₂ obj hg₂ hobj => ?_
  refine (hslot hg₂ _ _).bind fun s₃ _ hg₃ _ => (hstore _ _).bind fun s₄ _ hg₄ _ => ?_
  have hg₁₄ := hg₂.trans (hg₃.trans hg₄)
  refine (hslot hg₁₄ _ _).bind fun s₅ _ hg₅ _ => (hstore _ _).bind fun s₆ _ hg₆ _ => ?_
  refine .bind (.forM (I := fun _ => True) trivial fun f _ s₇ hg₇ _ => ?_) fun s₈ _ _ _ => ?_
  · exact (hslot (hg₁₄.trans (hg₅.trans (hg₆.trans hg₇))) _ _).bind fun s₉ _ _ _ => hstore _ _
  · exact .bind (founds_note ⟨rfl, rfl, rfl, rfl, rfl, rfl, rfl⟩) fun _ _ _ _ => .pure hobj

/-- What instructions ask for has something behind it: structs are declared, and a symbol that is called is that of
the runtime or stands for the callee. -/
@[reducible]
def foundInstructions (inp : Input) : Instructions inp where
  toRegime := (foundRegime inp).toRegime
  Has _ _ := True
  Given _ v := symbolOf? v = none
  Asked _ _ := True
  Layout s := Known s.registry
  Struct s t := .declareStruct t ∈ s.commands
  Slot _ := True
  Callable s sig v := ∀ name, symbolOf? v = some name → IsCallable inp s.codes name sig
  has_mono _ _ := trivial
  given_mono _ h := h
  asked_mono _ _ := trivial
  layout_mono hg h := h.mono hg.layouts
  struct_mono hg h := hg.commands _ h
  callable_mono hg h name hname := (h name hname).grow hg
  has_given _ := trivial
  has_literal _ := trivial
  has_absent := trivial
  asked_given _ := trivial
  asked_literal _ := trivial
  callable_given h _ hname := absurd (h.symm.trans hname) nofun
  allowed_translation := trivial
  allowed_callee := trivial
  slot_tag := trivial
  load _ _ := founds_emitValue trivial
  store _ _ := founds_emitEffect trivial
  alloca type := founds_alloca type
  slotAddr ht _ _ := founds_slotAddr ht _ _
  compare _ _ _ _ := founds_emitValue trivial
  binary _ _ _ _ := founds_emitValue trivial
  callDirect h _ _ := founds_callDirect h _
  callHelper hname _ := (founds_callRuntime (.inr ⟨List.mem_cons_of_mem _ hname, rfl⟩) _).bind
    fun _ _ _ _ => .pure trivial
  constant v := (founds_emit (c := .constant v) trivial).imp fun _ _ _ _ => trivial
  useStruct hd := founds_useStruct hd
  header hs := hs.1 ▸ hs.2.header
  construct hd := founds_construct hd
  fieldOf name _ := (founds_fieldOf _ name).imp fun _ _ _ _ => trivial
  layout_all hs hd := .inl (hs.1 ▸ hd)
  layout_closure hs := hs.1 ▸ hs.2.known_closure
  repOf id := founds_repOf id
  signature type span := (founds_signature type span).imp fun _ _ _ _ => trivial
  noteAttribute _ _ := founds_note ⟨rfl, rfl, rfl, rfl, rfl, rfl, rfl⟩

end TypedScript.Lower
