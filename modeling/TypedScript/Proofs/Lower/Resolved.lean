import TypedScript.Proofs.Lower.Scoped
import TypedScript.Proofs.Lower.Walk

/-!
# Lowering does not fail because of scopes: expressions, statements, functions

Every node is lowered in a scope that stands at its container. Only blocks and functions open a scope of another
container; the parts of all other nodes stand in the same container as the node itself. A function that waits is
lowered inside the scope that declares it, which by then stands.

* `fineView`: the view of lowering in which scopes stand at their containers.
* `fine_lowerProgram`: lowering a program does not fail because of scopes.
-/

namespace TypedScript.Lower

open TypedScript.Ast TypedScript.Ast.Tree TypedScript.Binding TypedScript.Capture TypedScript.Scope

variable {inp : Input} {u : Option (Nat × Nat)} {s : State} {α β : Type}

/-! ### Where nodes are lowered -/

/-- The node is gone to, and the scope stands at its container. -/
structure Within (inp : Input) (chain : Chain) (cur id : Nat) : Prop where
  visited : Visited inp.tree id
  stands : Stands inp chain cur (inp.tree.container id)

namespace Within

variable {chain chain' : Chain} {cur id c : Nat} {f : Form}

theorem later (h : Within inp chain cur id) (hl : Later inp chain chain') : Within inp chain' cur id :=
  ⟨h.visited, h.stands.later hl⟩

theorem reached (h : inp.Ready) (hid : Visited inp.tree id) : id ∈ inp.tree.reached :=
  reached_of_outside (hid.outside h.linked).1

/-- The parts of what is not a container are lowered in the same scope. -/
theorem part (h : inp.Ready) (hid : Within inp chain cur id) (hcont : inp.tree.isContainer id = false)
    (hc : c ∈ valueParts inp.tree id) : Within inp chain cur c := by
  obtain ⟨hbelow, -⟩ := below_part h.linked (reached h hid.visited) hc
  refine ⟨hid.visited.part hc, ?_⟩
  rw [hbelow.container, hcont]
  exact hid.stands

/-- The parts of a container are lowered in its scope. -/
theorem inside (h : inp.Ready) (hid : Visited inp.tree id) (hcur : Stands inp chain cur id)
    (hcont : inp.tree.isContainer id = true) (hc : c ∈ valueParts inp.tree id) : Within inp chain cur c := by
  obtain ⟨hbelow, -⟩ := below_part h.linked (reached h hid) hc
  refine ⟨hid.part hc, ?_⟩
  rw [hbelow.container, if_pos hcont]
  exact hcur

/-- An expression is lowered where what it is part of is. -/
theorem operand (h : inp.Ready) {f : Form} (hid : Within inp chain cur id) (hf : inp.tree.form? id = some f)
    (hc : c ∈ f.operands) : Within inp chain cur c := by
  cases f with
  | ret | exprStmt | ifElse | whileLoop | property | member | unary | binary | assign =>
    exact hid.part h (by simp [isContainer, hf])
      (by simpa [valueParts, hf, Form.isType, Form.children, Form.operands] using hc)
  | varDecl => exact hid.part h (by simp [isContainer, hf]) (by simpa [valueParts, hf, Form.operands] using hc)
  | call =>
    obtain rfl := List.mem_singleton.1 hc
    exact hid.part h (by simp [isContainer, hf]) (by simp [valueParts, hf, Form.isType, Form.children])
  | _ => exact absurd hc List.not_mem_nil

theorem arg (h : inp.Ready) {callee : Nat} {args : List Nat} (hid : Within inp chain cur id)
    (hf : inp.tree.form? id = some (.call callee args)) (hc : c ∈ args) : Within inp chain cur c :=
  hid.part h (by simp [isContainer, hf]) (by simp [valueParts, hf, Form.isType, Form.children, hc])

/-- The value of a property is lowered where the object is. -/
theorem property (h : inp.Ready) {props : List Nat} (hid : Within inp chain cur id)
    (hf : inp.tree.form? id = some (.object props)) (hc : c ∈ props) :
    Within inp chain cur ((inp.tree.children c).headD 0) := by
  have hprop : Within inp chain cur c :=
    hid.part h (by simp [isContainer, hf]) (by simpa [valueParts, hf, Form.isType, Form.children] using hc)
  obtain ⟨name, value, hp⟩ := h.linked.property_part hf (c := c) (by simpa [Form.parts] using hc)
  refine hprop.part h (by simp [isContainer, hp]) ?_
  simp [valueParts, children, hp, Form.isType, Form.children]

end Within

/-- If there is such a node, it is a container that is gone to. -/
def IsEnterable (inp : Input) (c : Nat) : Prop := c ≠ 0 → Visited inp.tree c ∧ inp.tree.isContainer c = true

/-- The parts of a container are lowered in its scope. -/
theorem IsEnterable.part (h : inp.Ready) {chain : Chain} {cur c id : Nat} (hc : IsEnterable inp c)
    (hcur : Stands inp chain cur c) (hid : id ∈ valueParts inp.tree c) : Within inp chain cur id := by
  have hne : c ≠ 0 := by
    rintro rfl
    simp [valueParts, form?, node?] at hid
  exact .inside h (hc hne).1 hcur (hc hne).2 hid

theorem isEnterable_root (h : inp.Ready) : IsEnterable inp inp.tree.root := by
  intro hne
  obtain ⟨body, hf⟩ := h.linked.root_module.resolve_left hne
  exact ⟨⟨Nat.pos_of_ne_zero hne, .here⟩, by simp [isContainer, hf]⟩

/-! ### Opening scopes -/

theorem calm_noteAttribute (key value : String) : Calm (noteAttribute key value) := .modify fun _ => ⟨rfl, rfl⟩

/-- A new scope for a container that lies directly in the one of `cur`. -/
theorem fine_openChild {cur c fn : Nat} (hcur : Stands inp s.chain cur (inp.tree.container c))
    (hfn : fn = functionAt inp.tree c) : Fine inp u s (openChild cur c fn) fun s' k => ∃ n,
    Opened inp s'.chain k c n :=
  Fine.opens (n := { parent := some cur, container := c, function := fn }) rfl
    (fun hs => hs.push (fun _ hp => Option.some.inj hp ▸ hcur.lt_size) (.blank rfl rfl))
    ⟨_, Array.getElem?_push_size, rfl, hfn, rfl, rfl, rfl, .inr ⟨cur, rfl, hcur.lt_size, hcur.later (.push _ _)⟩⟩

/-- The scope of the module. -/
theorem fine_openRoot (h : inp.Ready) :
    Fine inp u s (modifyGet fun s => let (chain, n) := s.chain.openRoot inp.tree.root; (n, { s with chain }))
      fun s' k => ∃ n, Opened inp s'.chain k inp.tree.root n :=
  Fine.opens (n := { container := inp.tree.root }) rfl (fun hs => hs.push nofun (.blank rfl rfl))
    ⟨_, Array.getElem?_push_size, rfl, (functionAt_root h.linked).symm, rfl, rfl, rfl, .inl ⟨rfl, rfl⟩⟩

/-- A block that is a statement has a scope of its own, in the function of the scope at hand. -/
theorem fine_openBlock (h : inp.Ready) {cur id : Nat} {body : List Nat} (hid : Within inp s.chain cur id)
    (hf : inp.tree.form? id = some (.block body)) :
    Fine inp u s (openChild cur id (s.chain.function cur)) fun s' k =>
      (∃ n, Opened inp s'.chain k id n) ∧ IsEnterable inp id := by
  have hfn : s.chain.function cur = functionAt inp.tree id := by
    have hfun : inp.tree.isFunction id = false := by simp [Tree.isFunction, hf, Form.isFunction]
    rw [hid.stands.function_eq h.linked, functionAt.eq_def inp.tree id, hfun, function_eq_functionAt]
    rfl
  -- a block that is a statement is not the body of a function
  have hcont : inp.tree.isContainer id = true := (hid.visited.outside h.linked).2 body hf
  exact (fine_openChild hid.stands hfn).imp fun _ _ _ hopened => ⟨hopened, fun _ => ⟨hid.visited, hcont⟩⟩

/-! ### Declarations at hand -/

theorem fine_ofScope {r : Except Scope.Error α} {a : α} (h : r = .ok a) :
    Fine inp u s (ofScope r) fun s' b => s' = s ∧ b = a := by
  subst h
  exact .pure ⟨rfl, rfl⟩

/-- The reference is to something at hand in a scope that stands somewhere. -/
def IsAtHand (inp : Input) (chain : Chain) (cur : Nat) (ref : Scope.Ref) : Prop :=
  AtHand chain cur ref ∧ ∃ c, Stands inp chain cur c

theorem IsAtHand.later {chain chain' : Chain} {cur : Nat} {ref : Scope.Ref} (h : IsAtHand inp chain cur ref)
    (hl : Later inp chain chain') : IsAtHand inp chain' cur ref := by
  obtain ⟨hhand, c, hstands⟩ := h
  exact ⟨hhand.later hstands hl, c, hstands.later hl⟩

/-- What the container of a scope declares is at hand. -/
theorem fine_lookupSame (h : inp.Ready) {cur c id : Nat} (hcur : Stands inp s.chain cur c)
    (hdecl : DeclaresValue inp.tree c id) :
    Fine inp u s (ofScope (s.chain.lookupDecl cur id (inp.tree.name id) (inp.tree.span id)))
      fun s' ref => IsAtHand inp s'.chain cur ref := by
  obtain ⟨ref, href, hhand⟩ := hcur.lookupDecl_same h.linked hdecl (container_ne_zero h.linked hdecl.1)
    (inp.tree.name id) (inp.tree.span id)
  refine (fine_ofScope href).imp ?_
  rintro _ _ - ⟨rfl, rfl⟩
  exact ⟨hhand, c, hcur⟩

/-- The scope in which a variable is declared declares it. -/
theorem declaresValue_var (h : inp.Ready) {id init : Nat} {name : String} {isConst : Bool} {type : Option Nat}
    (hid : Visited inp.tree id) (hf : inp.tree.form? id = some (.varDecl name isConst type init)) :
    DeclaresValue inp.tree (inp.tree.container id) id := by
  refine ⟨mem_decls.2 ⟨(hid.outside h.linked).1, by simp [isDeclaration, hf], rfl⟩, ?_⟩
  cases isConst <;> simp [symbolKind, hf, SymbolKind.ofForm]

/-- The scope of a function declares its parameters. -/
theorem declaresValue_param (h : inp.Ready) {fn param : Nat} {f : Form} (hfn : Visited inp.tree fn)
    (hf : inp.tree.form? fn = some f) (hfun : f.isFunction = true) (hparam : param ∈ f.params) :
    DeclaresValue inp.tree fn param := by
  refine ⟨mem_decls_param h.linked (hfn.outside h.linked).1 hf hfun hparam, ?_⟩
  obtain ⟨name, type, hform⟩ := h.linked.param_part hf (mem_parts_of_params hparam)
  simp [symbolKind, hform, SymbolKind.ofForm]

/-! ### The view -/

/-- Instructions do not touch scopes. -/
@[reducible]
def fineInstructions (inp : Input) : Instructions inp where
  toRegime := (fineRegime inp none).toRegime
  Has _ _ := True
  Given _ _ := True
  Asked _ _ := True
  Layout _ _ := True
  Struct _ _ := True
  Slot _ := True
  Callable _ _ _ := True
  has_mono _ _ := trivial
  given_mono _ _ := trivial
  asked_mono _ _ := trivial
  layout_mono _ _ := trivial
  struct_mono _ _ := trivial
  callable_mono _ _ := trivial
  has_given _ := trivial
  has_literal _ := trivial
  has_absent := trivial
  asked_given _ := trivial
  asked_literal _ := trivial
  callable_given _ := trivial
  allowed_translation := rfl
  allowed_callee := rfl
  slot_tag := trivial
  load _ _ := Fine.last (calm_emitValue _)
  store _ _ := Fine.last (calm_emitEffect _)
  alloca _ := Fine.last (calm_alloca _)
  slotAddr _ _ _ := Fine.last (calm_emitValue _)
  compare _ _ _ _ := Fine.last (calm_emitValue _)
  binary _ _ _ _ := Fine.last (calm_emitValue _)
  callDirect _ _ _ := Fine.last (calm_emitValue _)
  callHelper _ _ := Fine.last (calm_callHelper _ _)
  constant _ := Fine.last (calm_emit _)
  useStruct _ := Fine.last (calm_useStruct _)
  header _ := trivial
  construct _ := Fine.last (calm_construct _)
  fieldOf _ _ := Fine.last (calm_fieldOf _ _)
  layout_all _ _ := trivial
  layout_closure _ := trivial
  repOf id := Fine.last (calm_repOf id)
  signature _ _ := Fine.last (calm_signature _ _)
  noteAttribute _ _ := Fine.last (calm_noteAttribute _ _)

/-- A node is lowered in a scope that stands at its container, and what is referred to is at hand. -/
@[reducible]
def fineView (h : inp.Ready) : View inp where
  toInstructions := fineInstructions inp
  Settled _ := True
  Ended _ := True
  Quiet _ _ := True
  Made _ _ _ := True
  Admits _ _ := True
  settled _ := trivial
  settled_ended _ := trivial
  isEnded _ _ := ⟨fun _ => trivial, fun _ => trivial⟩
  quiet := trivial
  made _ _ := trivial
  made_mono _ _ := trivial
  admits _ _ := trivial
  admits_mono _ _ := trivial
  newBlock name hl _ hlive := (Fine.last (calm_newBlock name) hlive).imp fun _ _ hq =>
    ⟨hl.trans hq.1, trivial, trivial⟩
  br _ hlive := (Fine.last (calm_emitEffect _) hlive).imp fun _ _ hq => ⟨hq.1, trivial⟩
  condBr _ _ _ hlive := (Fine.last (calm_emitEffect _) hlive).imp fun _ _ hq => ⟨hq.1, trivial⟩
  setInsert hl _ _ := (Fine.last (calm_setInsert _) trivial).imp fun _ _ hq =>
    ⟨hl.trans hq.1, trivial, fun _ _ => trivial⟩
  ret _ hlive := (Fine.last (calm_ret _) hlive).imp fun _ _ hq => ⟨hq.1, trivial⟩
  Computed _ _ _ := True
  SymbolOf _ _ _ := True
  computed_mono _ _ := trivial
  symbolOf_mono _ _ := trivial
  has_computed _ := trivial
  computed_given _ := trivial
  computed_literal _ := trivial
  computed_symbol _ := trivial
  computed_assign _ _ := trivial
  computed_void _ _ _ := trivial
  asked_unary _ _ := trivial
  asked_binary _ _ _ := trivial
  callable _ _ _ := trivial
  Inside _ _ := True
  Within s := Within inp s.chain
  Opened s k id := (∃ n, Opened inp s.chain k id n) ∧ IsEnterable inp id
  Entered s k id := Stands inp s.chain k id ∧ IsEnterable inp id
  New _ _ := True
  Stocked _ _ := True
  Refers s k _ := IsAtHand inp s.chain k
  Place s := IsAtHand inp s.chain
  inside_mono _ _ := trivial
  within_mono hl hid := hid.later hl
  entered_mono hl hk := ⟨hk.1.later hl, hk.2⟩
  new_mono _ _ := trivial
  stocked_mono _ _ := trivial
  place_mono _ hl href := href.later hl
  stocked _ := trivial
  stocked_unwind _ _ _ := trivial
  has_deferred _ _ _ := trivial
  inner hl _ hl' := hl.trans hl'
  operand hid hf hc := hid.operand h hf hc
  arg hid hf hc := hid.arg h hf hc
  property hid hf hp := hid.property h hf hp
  within_entered hk hc := hk.2.part h hk.1 hc
  defer _ _ := (fine_defer _ _).imp fun _ _ _ _ => trivial
  openTransient _ hid := (fine_openTransient h hid.stands).imp fun _ _ _ hinner =>
    ⟨trivial, ⟨hid.visited, hinner⟩, trivial⟩
  openChild := by
    rintro s _ k id body ⟨rfl, -⟩ - hid hf
    exact (fine_openBlock h hid hf).imp fun _ _ _ hopened => ⟨trivial, hopened, trivial⟩
  enterContainer _ hk := (fine_enterContainer h hk.1).imp fun _ _ _ hstands => ⟨trivial, hstands, hk.2⟩
  lookup _ hid hf := (fine_lookup h hid.visited hf hid.stands).imp fun _ _ hl href =>
    ⟨href.2, _, hid.stands.later hl⟩
  place href _ := href
  symbol _ _ := trivial
  bindingAddr _ href := fine_bindingAddr href.1
  namedPointer := by
    rintro own s _ k id ref ⟨rfl, -⟩ - href -
    refine fine_scopePointer fun m hm => ?_
    obtain ⟨hmem, hesc⟩ := mem_outward_of_envAt? hm
    exact ⟨outward_trans href.1.mem hmem, hesc⟩
  ownPointer := by
    rintro own s _ k id ⟨rfl, -⟩ - -
    exact fine_scopePointer fun m hm => mem_outward_of_envAt? hm
  enqueue hid hf := (fine_enqueue hid.visited (by simp [Tree.isFunction, hf, Form.isFunction])
    (.inl hid.stands)).imp fun _ _ _ _ => trivial
  varPlace := by
    rintro own s _ k id name isConst type init ⟨rfl, -⟩ - hid hf
    exact fine_lookupSame h hid.stands (declaresValue_var h hid.visited hf)
  paramPlace := by
    rintro own s _ k fn f param ⟨rfl, -⟩ - hk hf hfun hparam
    exact fine_lookupSame h hk.1 (declaresValue_param h (hk.2 (ne_zero_of_form hf)).1 hf hfun hparam)

/-! ### Functions -/

section

variable (h : inp.Ready)
include h

theorem fine_of_leads {act : LowerM α} {k : Option Nat}
    (hact : (fineView h).Leads s act fun s' _ => (fineView h).Le k [] s s' ∧ (fineView h).Ended s') :
    Fine inp none s act fun _ _ => True := fun _ => hact.imp fun _ _ hq => ⟨hq.1, trivial, trivial⟩

theorem fine_lowerEntry : Fine inp none s (lowerEntry inp) fun _ _ => True := by
  refine Fine.step (calm_declareFunc _ _) fun s₁ _ _ => Fine.step (calm_defineFunc _) fun s₂ _ _ => ?_
  refine Fine.step (.modify fun _ => ⟨rfl, rfl⟩) fun s₃ _ _ => (fine_openRoot h).bind fun s₄ root _ hopened => ?_
  refine fine_of_leads h (k := some root) (leads_entry (V := fineView h) trivial ⟨hopened, isEnterable_root h⟩
    (fun s' hk id hid => hk.2.part h hk.1 ?_) trivial)
  by_cases hne : inp.tree.root = 0
  · simp [hne, children, form?, node?] at hid
  · obtain ⟨body, hf⟩ := h.linked.root_module.resolve_left hne
    simpa [valueParts, children, hf, Form.isType] using hid

theorem fine_lowerFunction {p : Pending} (hp : Awaited inp s.chain none p) :
    Fine inp none s (lowerFunction inp p) fun _ _ => True := by
  obtain ⟨hvisited, hfun, hwait⟩ := hp
  have hscope := hwait.resolve_right nofun
  obtain ⟨f, hf, hffun⟩ := exists_form_of_isFunction hfun
  obtain ⟨body, hbody⟩ := Form.exists_body?_of_isFunction hffun
  refine Fine.step (.modify fun _ => ⟨rfl, rfl⟩) fun s₁ _ hc₁ => Fine.step (calm_signature _ _) fun s₂ out hc₂ => ?_
  refine Fine.step (calm_defineFunc _) fun s₃ count hc₃ =>
    Fine.step (.modify fun _ => ⟨rfl, rfl⟩) fun s₄ _ hc₄ => ?_
  refine Fine.step (calm_noteAttribute _ _) fun s₅ _ hc₅ => ?_
  have hscope₅ : Stands inp s₅.chain p.scope (inp.tree.container p.node) := by rwa [hc₅, hc₄, hc₃, hc₂, hc₁]
  refine (fine_openChild hscope₅ (by rw [functionAt, if_pos hfun])).bind fun s₆ root _ hopened => ?_
  simp only [hf, hbody, Option.getD_some]
  exact fine_of_leads h (k := some root) (leads_function (V := fineView h) hf hbody trivial
    ⟨hopened, fun _ => ⟨hvisited, isContainer_of_isFunction hfun⟩⟩ (fun _ _ => trivial) (.inr rfl) out.2.1 trivial)

/-- Every function that waits is lowered. The induction is on the number of rounds. -/
theorem fine_lowerQueue (fuel : Nat) : Fine inp none s (lowerQueue inp fuel) fun _ _ => True := by
  induction fuel generalizing s with
  | zero => exact .pure trivial
  | succ fuel ih =>
    refine .of_inv fun hs => .here ?_
    split
    · exact .pure trivial
    · rename_i p rest hqueue
      have hp : Awaited inp s.chain none p := hs.queue p (by simp [hqueue])
      refine Regime.Goes.bind (Q := fun (s' : State) _ => s'.chain = s.chain)
        (Fine.alter (fun hs => ⟨⟨hs.parents, hs.housed, fun q hq => ?_⟩, .refl _⟩) rfl)
        fun s₁ _ _ hc₁ => (fine_lowerFunction h (hc₁ ▸ hp)).bind fun s₂ _ _ _ => ih
      exact hs.queue q (by simp [hqueue, hq])

end

/-! ### Programs -/

theorem calm_checkNames : Calm (checkNames inp) := by
  unfold checkNames
  dsimp only
  split
  · exact .unsupported _ _ _
  · exact .pure _

theorem fine_lowerProgram (h : inp.Ready) : Fine inp none s (lowerProgram inp) fun _ _ => True := by
  refine Fine.step calm_checkNames fun s₁ _ _ => Fine.step calm_declareRuntime fun s₂ _ _ => ?_
  refine (fine_lowerEntry h).bind fun s₃ _ _ _ => (fine_lowerQueue h _).bind fun s₄ _ _ _ => ?_
  exact Fine.last calm_defineRuntime

/-- At the start there are no scopes. -/
theorem scoped_start (inp : Input) (target : Layout.Target) : Scoped inp none { registry := .ofTarget target } :=
  ⟨fun k n p hn => by simp at hn, fun k n hn => by simp at hn, nofun⟩

/-- What was bound without complaint and analysed is lowered without an error that has to do with scopes. -/
theorem Input.Ready.isOfScope_of_lower (h : inp.Ready) {target : Layout.Target} {e : Error}
    (he : (lower inp target).error = some e) : e.isOfScope = false := by
  rcases hrun : (lowerProgram inp).run.run { registry := .ofTarget target } with ⟨r, s⟩
  rw [lower, hrun] at he
  cases r with
  | ok => exact nomatch he
  | error e' =>
    obtain rfl := Option.some.inj he
    exact (fine_lowerProgram h).fails (scoped_start inp target) hrun

/-- When lowering is done, the variables of all scopes have their places. -/
theorem Input.Ready.housed_of_lower (h : inp.Ready) {target : Layout.Target} {s : State} {u : Unit}
    (hrun : Runs (lowerProgram inp) { registry := .ofTarget target } u s) {n : Scope.Node}
    (hn : n ∈ s.chain.nodes) :
    Housed inp n := by
  obtain ⟨k, hk⟩ := Array.mem_iff_getElem?.1 hn
  exact ((fine_lowerProgram h).run (scoped_start inp target) hrun).1.housed k n hk nofun

end TypedScript.Lower
