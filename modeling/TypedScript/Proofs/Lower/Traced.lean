import TypedScript.Proofs.Lower.Founded
import TypedScript.Proofs.Lower.Helpers

/-!
# Lowering keeps the state grounded

The view of lowering in which what an expression evaluates to is followed as long as it is a symbol: an arrow
function and the name of a function give the symbol of the function, and an assignment passes on what it assigns.

* `foundView`: the view.
* `grounded_of_lower`: what a lowered program holds has something behind it.
-/

namespace TypedScript.Lower

open TypedScript.Ast TypedScript.Ast.Tree TypedScript.Ir TypedScript.Layout

variable {inp : Input} {s s' : State} {α β : Type}

/-! ### Scopes -/

/-- The scope is changed in a way that keeps its layout and the symbols of its functions. -/
theorem founds_modifyScope {k : Nat} {f : Scope.Node → Scope.Node}
    (hf : ∀ n, Sited inp s.registry s.codes n → Sited inp s.registry s.codes (f n)) :
    Founds inp s (modifyScope k f) fun s' _ => s'.registry = s.registry := by
  refine .grow (fun h => h.chain fun n hn => ?_) (.of_eq rfl rfl rfl) rfl
  rcases mem_modify hn with hn | ⟨n₀, hn₀, rfl⟩
  · exact .inl hn
  · exact .inr (hf n₀ (h.nodes n₀ hn₀))

theorem founds_changeScope {k : Nat} {f : Scope.Node → Scope.Node}
    (hf : ∀ n, (f n).layout = n.layout ∧ (f n).bindings = n.bindings) :
    Founds inp s (modifyScope k f) fun _ _ => True :=
  (founds_modifyScope fun n hn => ⟨(hf n).1 ▸ hn.layout, (hf n).2 ▸ hn.bindings⟩).imp fun _ _ _ _ => trivial

theorem founds_defer (k : Nat) (d : Scope.Deferred) : Founds inp s (defer k d) fun _ _ => True :=
  founds_changeScope (k := k) (f := fun node => { node with deferred := node.deferred ++ [d] }) fun _ => ⟨rfl, rfl⟩

/-- A scope is opened that has no layout and no names. -/
theorem founds_openNode {f : State → Nat × State} {node : Scope.Node}
    (hf : (f s).2 = { s with chain := ⟨s.chain.nodes.push node⟩ }) (hlayout : node.layout = none)
    (hbindings : node.bindings = []) : Founds inp s (modifyGet f) fun _ _ => True := by
  refine .changeGet (fun h => ?_) (by rw [hf]; exact .of_eq rfl rfl rfl) id trivial
  rw [hf]
  refine h.chain fun n hn => ?_
  rcases Array.mem_push.1 hn with hn | rfl
  · exact .inl hn
  · exact .inr (.blank hlayout hbindings)

theorem founds_openTransient (k : Nat) : Founds inp s (openTransient k) fun _ _ => True :=
  founds_openNode rfl rfl rfl

theorem founds_openChild (k container function : Nat) :
    Founds inp s (openChild k container function) fun _ _ => True := founds_openNode rfl rfl rfl

theorem founds_ofScope {r : Except Scope.Error α} : Founds inp s (ofScope r) fun s' a => s' = s ∧ r = .ok a := by
  unfold ofScope
  split
  · exact .pure ⟨rfl, rfl⟩
  · exact .throw trivial

theorem founds_scopeLayout (scope : Nat) : Founds inp s (scopeLayout scope) fun s' d => Known s'.registry d := by
  refine .of_inv fun hs => .bind (Q := fun s' n => s' = s ∧ n = s.chain.get scope) (.here (.pure ⟨rfl, rfl⟩)) ?_
  rintro _ _ - ⟨rfl, rfl⟩
  exact .pure (hs.known_layout scope)

theorem founds_scopePointer (cur : Nat) (target : Option Nat) :
    Founds inp s (scopePointer cur target) fun _ _ => True := by
  cases target with
  | none => exact .pure trivial
  | some m =>
    refine .here ?_
    dsimp only
    split
    · exact .pure trivial
    · split
      · exact .throw trivial
      · refine .here (.foldlM (Q := fun _ _ => True) trivial fun v hop s₁ _ => ?_)
        refine (founds_scopeLayout hop).bind fun s₂ d _ hd => (founds_fieldOf d _).bind fun s₃ f _ hs₃ => ?_
        subst hs₃
        exact (goes_loadField (I := foundInstructions inp) hd trivial trivial).imp fun _ _ _ _ => trivial

theorem founds_bindingAddr (cur : Nat) (ref : Scope.Ref) : Founds inp s (bindingAddr cur ref) fun _ _ => True := by
  unfold bindingAddr
  dsimp only
  split
  · refine (founds_scopePointer _ _).bind fun s₁ base _ _ => (founds_scopeLayout _).bind fun s₂ d _ hd => ?_
    exact (goes_fieldAddr (I := foundInstructions inp) hd trivial trivial).imp fun _ _ _ _ => trivial
  · exact .pure trivial

/-! ### Entering a container -/

theorem founds_addBinding (scope : Nat) {b : Scope.Binding} (hb : b.kind.isFunction = true →
    isNamedFunction inp.tree b.decl = true ∧ s.codes.lookup b.decl = some b.code) :
    Founds inp s (modify fun s => { s with chain := s.chain.declare scope b }) fun _ _ => True := by
  refine (founds_modifyScope (k := scope) (f := fun node => { node with bindings := b :: node.bindings })
    fun n hn => ?_).imp fun _ _ _ _ => trivial
  refine ⟨hn.layout, fun b' hb' => ?_⟩
  rcases List.mem_cons.1 hb' with rfl | hb'
  · exact hb
  · exact hn.bindings b' hb'

/-- A name is declared; that of a function with its symbol. -/
theorem founds_declareBinding (scope : Nat) (escaping : Bool) (decl : Nat) :
    Founds inp s (declareBinding inp scope escaping decl) fun _ _ => True := by
  unfold declareBinding
  dsimp only
  split
  · exact .pure trivial
  · rename_i hf
    refine (founds_codeFor decl).bind fun s₁ code _ hcode => (founds_repOf decl).bind fun s₂ rep hg₂ _ => ?_
    exact founds_addBinding scope fun _ => ⟨by simp [isNamedFunction, hf], hg₂.codes _ _ hcode⟩
  · rename_i hf
    have hfun : inp.tree.isFunction decl = true := by simp [Tree.isFunction, hf, Form.isFunction]
    refine (founds_enqueue hfun scope).bind fun s₁ code _ hcode => (founds_repOf decl).bind fun s₂ rep hg₂ _ => ?_
    exact founds_addBinding scope fun _ => ⟨by simp [isNamedFunction, hf], hg₂.codes _ _ hcode⟩
  · refine (founds_repOf decl).bind fun s₁ rep _ _ => founds_addBinding scope fun hfun => ?_
    dsimp only at hfun
    split at hfun
    · cases hfun
    · cases hfun

theorem founds_makeScopeObject (scope container : Nat) (vars : List Scope.Binding) :
    Founds inp s (makeScopeObject inp scope container vars) fun _ _ => True := by
  refine .of_inv fun hs => .here ?_
  obtain ⟨hextends, hmem⟩ := Registry.extends_scope s.registry (scopeKey inp.tree container)
    (vars.map fun b => ⟨fieldName b.name, b.rep⟩)
  have hmade := hs.made.scope (scopeKey inp.tree container) (vars.map fun b => ⟨fieldName b.name, b.rep⟩)
  dsimp only
  generalize s.registry.scope (scopeKey inp.tree container) (vars.map fun b => ⟨fieldName b.name, b.rep⟩) = out at *
  obtain ⟨r, d⟩ := out
  refine .bind (Q := fun (s' : State) _ => d ∈ s'.registry.all)
    (Founds.grow (fun h => h.registry hmade hextends.all)
    ⟨hextends.all, fun _ _ => id, fun _ => id⟩ hmem) fun s₁ _ _ hd => ?_
  refine (founds_construct (.inl hd)).bind fun s₂ object hg₂ _ => ?_
  have hd₂ := hg₂.layouts.subset hd
  refine .bind (founds_modifyScope fun n hn => ⟨fun d' h => ?_, hn.bindings⟩) fun s₃ _ _ hr₃ => .here ?_
  · exact Option.some.inj h ▸ hd₂
  refine (founds_scopePointer _ _).locate.bind fun s₄ parent hg₄ _ =>
    (founds_fieldOf _ _).bind fun s₅ link _ hs₅ => ?_
  subst hs₅
  refine (goes_retain (I := foundInstructions inp) .scope trivial).bind fun s₆ _ hg₆ _ => ?_
  have hd₆ := hg₆.layouts.subset (hg₄.layouts.subset (hr₃ ▸ hd₂))
  exact goes_storeField (I := foundInstructions inp) (.inl hd₆) trivial trivial trivial

/-- The places of variables are noted in their bindings. -/
theorem Sited.map {r : Registry} {codes : List (Nat × String)} {n : Scope.Node} (h : Sited inp r codes n)
    {f : Scope.Binding → Scope.Binding}
    (hf : ∀ b, (f b).kind = b.kind ∧ (f b).decl = b.decl ∧ (f b).code = b.code) :
    Sited inp r codes { n with bindings := n.bindings.map f } where
  layout := h.layout
  bindings b' hb' := by
    obtain ⟨b, hb, rfl⟩ := List.mem_map.1 hb'
    obtain ⟨hkind, hdecl, hcode⟩ := hf b
    rw [hkind, hdecl, hcode]
    exact h.bindings b hb

theorem founds_place {scope decl : Nat} {f : Scope.Binding → Scope.Binding}
    (hf : ∀ b, (f b).kind = b.kind ∧ (f b).decl = b.decl ∧ (f b).code = b.code) :
    Founds inp s (modifyScope scope fun n =>
      { n with bindings := n.bindings.map fun b => if b.decl = decl then f b else b }) fun _ _ => True := by
  refine (founds_modifyScope fun n hn => hn.map fun b => ?_).imp fun _ _ _ _ => trivial
  split
  · exact hf b
  · exact ⟨rfl, rfl, rfl⟩

theorem founds_placeVariable (scope : Nat) (b : Scope.Binding) :
    Founds inp s (placeVariable inp scope b) fun _ _ => True := by
  unfold placeVariable
  dsimp only
  split
  · refine .of_inv fun hs => .bind (Q := fun s' n => s' = s ∧ n = s.chain.get scope) (.here (.pure ⟨rfl, rfl⟩)) ?_
    rintro s₁ node - ⟨rfl, rfl⟩
    refine (founds_fieldOf _ _).bind fun s₂ field _ hs₂ => ?_
    subst hs₂
    refine .bind (founds_place fun _ => ⟨rfl, rfl, rfl⟩) fun s₃ _ hg₃ _ => ?_
    split
    · refine (goes_fieldAddr (I := foundInstructions inp) ((hs.known_layout scope).mono hg₃.layouts) trivial
        trivial).bind fun s₄ addr _ _ => founds_defer _ _
    · exact .pure trivial
  · refine (founds_alloca _).bind fun s₁ slot _ _ =>
      .bind (founds_place fun _ => ⟨rfl, rfl, rfl⟩) fun s₂ _ _ _ => ?_
    split
    · exact .bind (founds_emitEffect trivial) fun _ _ _ _ => founds_defer _ _
    · exact .pure trivial

theorem founds_enterContainer (scope container : Nat) :
    Founds inp s (enterContainer inp scope container) fun _ _ => True := by
  refine .bind (founds_changeScope fun _ => ⟨rfl, rfl⟩) fun s₁ _ _ _ => ?_
  refine .bind (.forM (I := fun _ => True) trivial fun decl _ s₂ _ _ => founds_declareBinding scope _ decl)
    fun s₂ _ _ _ => ?_
  refine .bind (Q := fun _ _ => True) (.here (.pure trivial)) fun s₃ node _ _ => ?_
  dsimp only
  have hplace (s : State) (vars : List Scope.Binding) :
      Founds inp s (vars.forM (placeVariable inp scope)) fun _ _ => True :=
    .forM (I := fun _ => True) trivial fun b _ _ _ _ => founds_placeVariable scope b
  split
  · refine (founds_makeScopeObject _ _ _).bind fun s₄ _ _ _ => (hplace s₄ _).bind fun s₅ _ _ _ => ?_
    exact .bind (Q := fun _ _ => True) (.here (.pure trivial)) fun _ _ _ _ => founds_defer _ _
  · exact (hplace s₃ _).bind fun _ _ _ _ => .pure trivial

/-! ### Names -/

theorem of_find? {c : Scope.Chain} {n owner : Nat} {p : Scope.Binding → Bool} {b : Scope.Binding}
    (h : c.find? n p = some (b, owner)) : p b = true := by
  obtain ⟨m, -, hm⟩ := List.exists_of_findSome?_eq_some h
  obtain ⟨b', hb', heq⟩ := Option.map_eq_some_iff.1 hm
  cases heq
  exact List.find?_some hb'

theorem binding_of_refTo {c : Scope.Chain} {n owner : Nat} {b : Scope.Binding} {ref : Scope.Ref}
    (h : c.refTo n b owner = .ok ref) : ref.binding = b := by
  unfold Scope.Chain.refTo at h
  split at h
  · exact (Except.ok.inj h) ▸ rfl
  split at h
  · cases h
  split at h
  · exact (Except.ok.inj h) ▸ rfl
  · cases h

theorem Grounded.binding (h : Grounded inp s) {k : Nat} {b : Scope.Binding} (hb : b ∈ (s.chain.get k).bindings)
    (hfun : b.kind.isFunction = true) : isNamedFunction inp.tree b.decl = true ∧ s.codes.lookup b.decl =
    some b.code := by
  unfold Scope.Chain.get at hb
  rw [Array.getD_eq_getD_getElem?] at hb
  cases hk : s.chain.nodes[k]? with
  | none =>
    rw [hk] at hb
    cases hb
  | some node =>
    rw [hk] at hb
    exact (h.nodes node (Array.mem_of_getElem? hk)).bindings b hb hfun

/-- A name that is found to be that of a function stands for it. -/
theorem founds_lookup (cur : Nat) {id : Nat} {name : String} (hid : inp.tree.form? id = some (.ident name)) :
    Founds inp s (lookup inp cur id) fun s' ref =>
      ref.binding.kind.isFunction = true → StandsFor inp s'.codes id ref.binding.code := by
  refine .of_inv fun hs => .here ?_
  dsimp only
  split
  · rename_i decl hdecl
    refine founds_ofScope.imp fun s₁ ref _ h hfun => ?_
    obtain ⟨rfl, href⟩ := h
    unfold Scope.Chain.lookupDecl at href
    split at href
    · rename_i b owner hfind
      rw [binding_of_refTo href] at hfun ⊢
      have hb : b.decl = decl := by simpa using (Bool.and_eq_true_iff.1 (of_find? hfind)).2
      obtain ⟨hnamed, hcode⟩ := hs.binding (mem_of_find? hfind) hfun
      exact ⟨id, b.decl, .self id, .bound hid (hb ▸ hdecl) hnamed, hcode⟩
    · cases href
  · rename_i hnone
    split
    · rename_i ref href
      refine .pure fun hfun => ?_
      unfold Scope.Chain.lookup at href
      split at href
      · rename_i b owner hfind
        rw [binding_of_refTo href] at hfun ⊢
        exact ⟨id, b.decl, .self id, .unbound hid hnone, (hs.binding (mem_of_find? hfind) hfun).2⟩
      · cases href
    · exact .throw trivial

/-! ### The view -/

/-- If the value of an expression is a symbol, the expression stands for its function. -/
@[reducible]
def foundView (inp : Input) : View inp where
  toInstructions := foundInstructions inp
  Settled _ := True
  Ended _ := True
  Quiet _ _ := True
  Made _ _ _ := True
  Admits _ _ := True
  settled _ := trivial
  settled_ended _ := trivial
  isEnded _ _ := ⟨fun _ => trivial, fun _ => trivial⟩
  quiet := trivial
  made _ _ := trivial
  made_mono _ _ := trivial
  admits _ _ := trivial
  admits_mono _ _ := trivial
  newBlock name hg _ hlive := (founds_newBlock name hlive).imp fun _ _ hq => ⟨hg.trans hq.1, trivial, trivial⟩
  br _ hlive := (founds_emitEffect (i := .br _) trivial hlive).imp fun _ _ hq => ⟨hq.1, trivial⟩
  condBr _ _ _ hlive := (founds_emitEffect (i := .condBr ..) trivial hlive).imp fun _ _ hq => ⟨hq.1, trivial⟩
  setInsert hg _ _ := (founds_setInsert _ trivial).imp fun _ _ hq => ⟨hg.trans hq.1, trivial, fun _ _ => trivial⟩
  ret _ hlive := (founds_ret _ hlive).imp fun _ _ hq => ⟨hq.1, trivial⟩
  Computed s id v := ∀ name, symbolOf? v = some name → StandsFor inp s.codes id name
  SymbolOf s id name := StandsFor inp s.codes id name
  computed_mono hg h name hname := (h name hname).grow hg
  symbolOf_mono hg h := h.grow hg
  has_computed _ := trivial
  computed_given h name hname := absurd (h.symm.trans hname) nofun
  computed_literal {_ _ v} h name hname := by
    cases v with
    | func => exact h.elim
    | _ => cases hname
  computed_symbol h _ hname := Option.some.inj hname ▸ h
  computed_assign hf h name hname := by
    obtain ⟨x, fn, hx, hfn, hcode⟩ := h name hname
    exact ⟨x, fn, .assign hf hx, hfn, hcode⟩
  computed_void _ _ _ := nofun
  asked_unary _ _ := trivial
  asked_binary _ _ _ := trivial
  callable := by
    rintro s id callee args v out hf ⟨_, _, _, hrun⟩ hv name hname
    exact .inr ⟨id, callee, args, hf, hv name hname, sigOf?_of_signature hrun⟩
  Inside _ _ := True
  Within _ _ _ := True
  Opened _ _ _ := True
  Entered _ _ _ := True
  New _ _ := True
  Stocked _ _ := True
  Refers s _ id ref := ref.binding.kind.isFunction = true → StandsFor inp s.codes id ref.binding.code
  Place _ _ _ := True
  inside_mono _ _ := trivial
  within_mono _ _ := trivial
  entered_mono _ _ := trivial
  new_mono _ _ := trivial
  stocked_mono _ _ := trivial
  place_mono _ _ _ := trivial
  stocked _ := trivial
  stocked_unwind _ _ _ := trivial
  has_deferred _ _ _ := trivial
  inner hg _ hg' := hg.trans hg'
  operand _ _ _ := trivial
  arg _ _ _ := trivial
  property _ _ _ := trivial
  within_entered _ _ := trivial
  defer _ _ := founds_defer _ _
  openTransient _ _ := (founds_openTransient _).imp fun _ _ _ _ => ⟨trivial, trivial, trivial⟩
  openChild _ _ _ _ := (founds_openChild _ _ _).imp fun _ _ _ _ => ⟨trivial, trivial, trivial⟩
  enterContainer _ _ := (founds_enterContainer _ _).imp fun _ _ _ _ => ⟨trivial, trivial⟩
  lookup _ _ hf := founds_lookup _ hf
  place _ _ := trivial
  symbol href hfun := href hfun
  bindingAddr _ _ := founds_bindingAddr _ _
  namedPointer _ _ _ _ := founds_scopePointer _ _
  ownPointer _ _ _ := founds_scopePointer _ _
  enqueue _ hf := (founds_enqueue (by simp [Tree.isFunction, hf, Form.isFunction]) _).imp
    fun _ _ _ hcode => ⟨_, _, .self _, .arrow hf rfl, hcode⟩
  varPlace _ _ _ _ := founds_ofScope.imp fun _ _ _ _ => trivial
  paramPlace _ _ _ _ _ _ := founds_ofScope.imp fun _ _ _ _ => trivial

/-! ### Functions -/

/-- What is lowered into a block and ends it keeps the state grounded. -/
theorem founds_of_leads {act : LowerM α} {k : Option Nat}
    (h : (foundView inp).Leads s act fun s' _ => (foundView inp).Le k [] s s' ∧ (foundView inp).Ended s') :
    Founds inp s act fun _ _ => True := fun _ => h.imp fun _ _ hq => ⟨hq.1, trivial, trivial⟩

theorem founds_lowerEntry : Founds inp s (lowerEntry inp) fun _ _ => True := by
  refine (founds_declareFunc (.inr rfl)).bind fun s₁ _ _ _ => (founds_defineFunc _).bind fun s₂ _ _ _ => ?_
  refine .bind (founds_note ⟨rfl, rfl, rfl, rfl, rfl, rfl, rfl⟩) fun s₃ _ _ _ => ?_
  refine .bind (founds_openNode rfl rfl rfl) fun s₄ root _ _ => founds_of_leads (k := some root) ?_
  exact leads_entry (V := foundView inp) trivial trivial (fun _ _ _ _ => trivial) trivial

theorem founds_lowerFunction {p : Pending} (hp : inp.tree.isFunction p.node = true) :
    Founds inp s (lowerFunction inp p) fun _ _ => True := by
  obtain ⟨f, hf, hfun⟩ := exists_form_of_isFunction hp
  obtain ⟨body, hbody⟩ := Form.exists_body?_of_isFunction hfun
  refine .bind (founds_note ⟨rfl, rfl, rfl, rfl, rfl, rfl, rfl⟩) fun s₁ _ _ _ => ?_
  refine (founds_signature _ _).bind fun s₂ out _ _ => (founds_defineFunc _).bind fun s₃ count _ _ => ?_
  refine .bind (founds_note ⟨rfl, rfl, rfl, rfl, rfl, rfl, rfl⟩) fun s₄ _ _ _ => ?_
  refine .bind (founds_note ⟨rfl, rfl, rfl, rfl, rfl, rfl, rfl⟩) fun s₅ _ _ _ => ?_
  refine (founds_openChild _ _ _).bind fun s₆ root _ _ => founds_of_leads (k := some root) ?_
  simp only [hf, hbody, Option.getD_some]
  exact leads_function (V := foundView inp) hf hbody trivial trivial (fun _ _ => trivial) (.inr trivial) out.2.1
    trivial

/-- Waiting functions are lowered one after another. The induction is on the rounds that are left. -/
theorem founds_lowerQueue (fuel : Nat) : Founds inp s (lowerQueue inp fuel) fun _ _ => True := by
  induction fuel generalizing s with
  | zero => exact .pure trivial
  | succ fuel ih =>
    refine .of_inv fun hs => .here ?_
    split
    · exact .pure trivial
    · rename_i p rest hqueue
      have hpop : Founds inp s (modify fun s => { s with queue := rest }) fun _ _ => True := by
        refine .grow (fun h => h.grow (.of_eq rfl rfl rfl) h.made (fun _ => .inl) (.inl rfl) (fun _ => .inl)
          (fun _ _ => .inl) fun q hq => .inl ?_) (.of_eq rfl rfl rfl) trivial
        exact hqueue ▸ List.mem_cons_of_mem p hq
      refine .bind hpop fun s₁ _ _ _ => ?_
      exact (founds_lowerFunction (hs.queue p (hqueue ▸ List.mem_cons_self))).bind fun s₂ _ _ _ => ih

/-! ### The runtime -/

theorem founds_helper {name : String} {body : LowerM α} (h : ∀ s', (foundView inp).Leads s' body fun s'' _ =>
      (foundView inp).Le none [] s' s'' ∧ (foundView inp).Ended s'') :
    Founds inp s (do let _ ← defineFunc name; body) fun _ _ => True :=
  (founds_defineFunc name).bind fun s' _ _ _ => founds_of_leads (h s')

theorem founds_defineRuntime : Founds inp s (defineRuntime inp) fun _ _ => True := by
  have hinner {name inner : String} {s : State} (hinner : inner ∈ helperNames) :
      Founds inp s (defineFnHelper name inner) fun _ _ => True :=
    founds_helper fun _ => leads_fnHelperBody (V := foundView inp) trivial trivial hinner trivial
  refine Regime.Goes.bind
    (founds_helper fun _ => leads_retainBody (V := foundView inp) trivial trivial trivial trivial)
    fun s₁ _ _ _ => (hinner (by simp [helperNames])).bind fun s₂ _ _ _ => ?_
  refine (hinner (by simp [helperNames])).bind fun s₃ _ _ _ => founds_helper fun s₄ => ?_
  refine leads_releaseBody (V := foundView inp) (fun _ => trivial) trivial trivial (fun name hname => ?_) trivial
    trivial
  exact .inl (.inr ⟨Option.some.inj hname ▸ List.mem_cons_self, rfl⟩)

/-- The struct that all objects start with stands behind what is lowered. -/
theorem grounded_start (inp : Input) (target : Target) :
    Grounded inp { registry := .ofTarget target, commands := #[.declareStruct headerStruct] } where
  made := .ofTarget target
  nodes n hn := absurd hn (Array.not_mem_empty n)
  commands i c hi := by
    obtain rfl := Array.mem_singleton.1 (Array.mem_of_getElem? hi)
    exact .inl rfl
  header := Array.mem_singleton.2 rfl
  structs t ht := absurd ht List.not_mem_nil
  symbols name sig h := by cases h
  queue p hp := absurd hp List.not_mem_nil

/-- The functions of the runtime are declared before anything else. -/
theorem founds_declareHooks : Founds inp s (do
    declareFunc inp.options.allocate allocateSig
    declareFunc inp.options.release helperSig
    helperNames.forM (declareFunc · helperSig)) fun s' _ =>
      ∀ name sig, IsRuntime inp.options name sig → .declareFunc name sig ∈ s'.commands := by
  refine (founds_declareFunc (.inl (.inl ⟨rfl, rfl⟩))).bind fun s₁ _ _ hallocate => ?_
  refine (founds_declareFunc (.inl (.inr ⟨List.mem_cons_self, rfl⟩))).bind fun s₂ _ hg₂ hrelease => ?_
  refine (Founds.forM_all (P := fun s name => .declareFunc name helperSig ∈ s.commands)
    (fun _ _ _ hg hmem => hg.commands _ hmem) fun name hname s₃ _ => ?_).imp fun s₄ _ hg₄ hhelpers name sig h => ?_
  · exact founds_declareFunc (.inl (.inr ⟨List.mem_cons_of_mem _ hname, rfl⟩))
  · rcases h with ⟨rfl, rfl⟩ | ⟨hname, rfl⟩
    · exact (hg₂.trans hg₄).commands _ hallocate
    · rcases List.mem_cons.1 hname with rfl | hname
      · exact hg₄.commands _ hrelease
      · exact hhelpers name hname

/-- What a lowered program holds has something behind it, and the functions of the runtime are declared. -/
theorem grounded_of_lower {target : Target} (h : (lower inp target).error = none) : Grounded inp
    (lower inp target).state ∧
    ∀ name sig, IsRuntime inp.options name sig → .declareFunc name sig ∈ (lower inp target).state.commands := by
  obtain ⟨_, s₁, hnames, hrun⟩ := runs_bind.1 (runs_of_lower h)
  obtain ⟨rfl, -⟩ := notMem_of_checkNames hnames
  obtain ⟨_, s₂, hruntime, hrest⟩ := runs_bind.1 hrun
  obtain ⟨_, s₃, hheader, hhooks⟩ := runs_bind.1 hruntime
  obtain rfl := runs_modify.1 hheader
  obtain ⟨hs₂, -, hdeclared⟩ := founds_declareHooks.run (grounded_start inp target) hhooks
  have hlower : Founds inp s₂ (do
      lowerEntry inp
      lowerQueue inp (inp.tree.size + 1)
      defineRuntime inp) fun _ _ => True := founds_lowerEntry.bind fun _ _ _ _ =>
        (founds_lowerQueue _).bind fun _ _ _ _ => founds_defineRuntime
  obtain ⟨hs, hg, -⟩ := hlower.run hs₂ hrest
  exact ⟨hs, fun name sig hname => hg.commands _ (hdeclared name sig hname)⟩

end TypedScript.Lower
