import TypedScript.Proofs.Check.Expressions

/-!
# Visiting functions

The head of a function gives its parameters their types, the body is entered once, and every return in it gives
back what the function returns.

* `Ready.inside`: a body can be visited once its function has been entered.
* `Completes.body_succ`: the body of a function gives back what the function returns.
* `Completes.signature_succ`, `Completes.declare_succ`: the type of a function that is used, and of one that is
  declared.
* `Completes.exprType_succ`: what visiting an expression leads to.
-/

namespace TypedScript.Check

open TypedScript.Ast TypedScript.Binding TypedScript.Ty Typing

variable {env : Env} {s s' s'' : State} {P : Prop} {id d v τ ρ inner : Nat} {f : Form} {ns ns' params σs : List Nat}

/-! ### Heads of functions -/

/-- The nodes of the head of a function: its parameters and its result type. -/
def heading (t : Tree) (f : Form) : List Nat := (f.params ++ f.type?.toList).flatMap (listing t)

theorem paramsOf_eq (hf : env.tree.form? id = some f) : paramsOf env.tree id = f.params := by simp [paramsOf, hf]

theorem judged_of_isType {Γ : Typing} (htype : env.tree.isType v = true) : Judged env Γ v := by
  intro g hg
  have hgtype : g.isType = true := by simpa [Tree.isType, hg] using htype
  cases g with
  | typeName | typeObject | typeField | typeFunc => trivial
  | _ => cases hgtype

section

variable (hscene : Scene env)
include hscene

theorem listing_of_body? (hf : env.tree.form? id = some f) (hb : f.body? = some inner) :
    listing env.tree id = id :: (heading env.tree f ++ listing env.tree inner) := by
  rw [listing_eq hscene.linked hf, Form.isType_of_isFunction (isFunction_of_body? hb), Form.children_of_body? hb]
  simp [heading]

theorem listing_foreign {name : String} {result : Nat}
    (hf : env.tree.form? id = some (.declareFunc name params result)) :
    listing env.tree id = id :: heading env.tree (.declareFunc name params result) := by
  rw [listing_eq hscene.linked hf]
  simp [heading, Form.isType, Form.children, Form.params, Form.type?]

/-- What is listed in the head of a function is a parameter or a type. -/
theorem mem_heading (hf : env.tree.form? id = some f) (hv : v ∈ heading env.tree f) :
    v ∈ f.params ∨ env.tree.isType v = true := by
  have hwritten {c : Nat} {g : Form} {w : Nat} (hg : env.tree.form? c = some g) (hw : w ∈ g.type?)
      (hv : v ∈ listing env.tree w) : env.tree.isType v = true := by
    obtain ⟨-, htype⟩ := hscene.linked.isType_part hg (mem_parts_of_type? hw)
    rw [(listing_type hscene.linked htype).1] at hv
    exact List.mem_singleton.1 hv ▸ htype
  obtain ⟨c, hc, hv⟩ := List.mem_flatMap.1 hv
  rcases List.mem_append.1 hc with hc | hc
  · obtain ⟨name, type, hparam⟩ := hscene.linked.param_part hf (mem_parts_of_params hc)
    rw [listing_eq hscene.linked hparam] at hv
    rcases List.mem_cons.1 hv with rfl | hv
    · exact .inl hc
    · obtain ⟨w, hw, hv⟩ := List.mem_flatMap.1 hv
      exact .inr (hwritten hparam (Option.mem_toList.1 hw) hv)
  · exact .inr (hwritten hf (Option.mem_toList.1 hc) hv)

theorem mem_heading_of_params (hf : env.tree.form? id = some f) (hv : v ∈ f.params) : v ∈ heading env.tree f := by
  obtain ⟨name, type, hparam⟩ := hscene.linked.param_part hf (mem_parts_of_params hv)
  exact List.mem_flatMap.2 ⟨v, List.mem_append_left _ hv, self_mem_listing hscene.linked hparam⟩

/-- The head of a function obeys the rules if its parameters do. -/
theorem judged_heading (hf : env.tree.form? id = some f) {Γ : Typing}
    (hparams : ∀ p ∈ f.params, ∃ σ, Γ.HasType p σ ∧
    ∀ w ∈ (env.tree.form? p).bind (·.type?), Denotes env Γ w σ) : ∀ v ∈ heading env.tree f, Judged env Γ v := by
  intro v hv
  rcases mem_heading hscene hf hv with hv | htype
  · obtain ⟨name, type, hparam⟩ := hscene.linked.param_part hf (mem_parts_of_params hv)
    obtain ⟨σ, hσ, hwritten⟩ := hparams v hv
    exact .intro hparam ⟨σ, hσ, fun w hw => hwritten w (by simpa [hparam, Form.type?] using hw)⟩
  · exact judged_of_isType htype

/-- When the parameters have types, the head of the function was visited. -/
theorem Parametrizes.passes (h : Parametrizes env s s' f.params σs) (hs : Orderly env s)
    (hf : env.tree.form? id = some f) (hid : ¬ DeclaresFunction env.tree id ∨ IsInferred env.tree id) :
    Passes env s s' (heading env.tree f) where
  frames := h.fills.frames
  visits := {
    typing := h.fills.typing
    busy := h.fills.busy
    fresh := fun v τ hτ => by
      rcases h.fills.fresh v τ hτ with hτ | ⟨hmem, -⟩
      · exact .inl ⟨τ, hτ⟩
      · exact .inr (.inl (mem_heading_of_params hscene hf hmem))
    done := fun v hv => .inl (h.fills.done ▸ hv)
    kept := fun v hv => h.fills.done ▸ hv
    orderly := hs.fills h.fills fun p hp => .param hscene (paramsOf_eq hf ▸ hp) hid
    judged := judged_heading hscene hf h.written }

omit hscene in
/-- A function whose parameters have types has a type that goes with them. -/
theorem Parametrizes.signed (h : Parametrizes env s s' f.params σs) (hf : env.tree.form? id = some f) {Γ : Typing}
    (hΓ : Grows s'.typing Γ) (hτ : Γ.HasType id τ) (hmeans : Γ.Means τ (.func σs ρ))
    (hwritten : ∀ w ∈ f.type?, Denotes env Γ w ρ) :
    Callable env Γ id f.params f.type? ρ ∧ Signed env Γ id := by
  have hcallable : Callable env Γ id f.params f.type? ρ :=
    ⟨τ, σs, hτ, hmeans, h.typed.imp fun _ _ hσ => hΓ.info _ _ trivial hσ, hwritten⟩
  unfold Signed
  rw [paramsOf_eq hf, hf]
  refine ⟨hcallable, ⟨ρ, hcallable⟩, fun p hp => ?_⟩
  obtain ⟨σ, hσ, hdenotes⟩ := h.written p hp
  exact ⟨σ, hΓ.info p σ trivial hσ, fun w hw => (hdenotes w hw).grow hΓ fun _ _ => trivial⟩

/-! ### Entering bodies -/

omit hscene in
theorem Known.entered (h : Known env s d) (id : Nat) : Known env (s.entered id) d :=
  h.imp_right (And.imp_right (Or.imp_right (List.mem_cons_of_mem _)))

omit hscene in
theorem Orderly.entered (h : Orderly env s) (id : Nat) : Orderly env (s.entered id) :=
  ⟨h.stocked, h.sound, h.has, h.aliases, h.signed, h.unsigned, fun d hd => by
    rcases List.mem_cons.1 hd with rfl | hd
    · exact List.mem_cons_self
    · exact List.mem_cons_of_mem _ (h.busy d hd)⟩

/-- When the head of a function was visited, its body can be. -/
theorem Ready.inside {front : List Nat} {steps : Nat} (h : Ready env s (id :: (front ++ ns)) (steps + 3))
    (hs : Visits env s s' front) (hself : ∀ u ∈ ns, env.table.decl? u = some id → Known env (s'.entered id) id) :
    Ready env (s'.entered id) ns steps := by
  obtain ⟨hprepared, hlt⟩ := h
  have hnodup := List.nodup_cons.1 (hscene.nodup.sublist hprepared.placed)
  have hmem {v : Nat} (hv : v ∈ ns) : v ∈ id :: (front ++ ns) := List.mem_cons_of_mem _ (List.mem_append_right _ hv)
  rw [List.length_cons, List.length_append] at hlt
  refine ⟨⟨?_, hs.orderly.entered id, fun u hu d hd => ?_, fun v hv => ?_⟩, by omega⟩
  · exact ((List.sublist_append_right _ _).trans (List.sublist_cons_self _ _)).trans hprepared.placed
  · rcases hprepared.supplied u (hmem hu) d hd with hknown | hd'
    · exact .inl ((hknown.spread hs.toSpreads).entered id)
    rcases List.mem_cons.1 hd' with rfl | hd'
    · exact .inl (hself u hu hd)
    rcases List.mem_append.1 hd' with hd' | hd'
    · obtain ⟨-, hdecl, hkind⟩ := hscene.declared u (hprepared.mem_reached (hmem hu)) d hd
      exact .inl (.inl ((hs.judged d hd').hasType hdecl hkind))
    · exact .inr hd'
  · obtain ⟨hdone, hearly⟩ := hprepared.fresh v (hmem hv)
    have hne : v ≠ id := by
      rintro rfl
      exact hnodup.1 (List.mem_append_right _ hv)
    have hnot : v ∉ front := fun hfront => List.disjoint_of_nodup_append hnodup.2 hfront hv
    refine ⟨fun hv' => ?_, fun τ hτ => ?_⟩
    · rcases List.mem_cons.1 hv' with heq | hv'
      · exact hne heq
      · exact (hs.done v hv').elim hdone hnot
    · rcases hs.fresh v τ hτ with ⟨σ, hσ⟩ | hmem | he
      · exact hearly σ hσ
      · exact absurd hmem hnot
      · exact he

end

/-! ### Frames -/

/-- What the function returns in the end: nothing, if no return says otherwise. -/
def Frame.outcome (f : Frame) : Nat := if f.wanted ≠ 0 then f.wanted else voidId

theorem Frame.outcome_eq {top : Frame} (h : top.wanted ≠ 0) : top.outcome = top.wanted := if_pos h

namespace FramesGo

variable {fs fs' fs'' : List Frame}

theorem refl : ∀ fs : List Frame, FramesGo fs fs
  | [] => .none
  | _ :: _ => .top rfl fun _ => rfl

theorem trans (h : FramesGo fs fs') (h' : FramesGo fs' fs'') : FramesGo fs fs'' := by
  cases h with
  | none => exact h'
  | top hresult hinferred =>
    cases h' with
    | top hresult' hinferred' =>
      refine .top (hresult'.trans hresult) fun hne => ?_
      have hsame := hinferred hne
      rw [hinferred' (hsame ▸ hne), hsame]

/-- What the function around a place wants goes on to be wanted. -/
theorem wanted {a b : Frame} {outer outer' : List Frame} (h : FramesGo (a :: outer) (b :: outer'))
    (hne : a.wanted ≠ 0) :
    b.wanted = a.wanted := by
  cases h with
  | top hresult hinferred =>
    unfold Frame.wanted at hne ⊢
    rw [hresult]
    by_cases hzero : a.result = 0
    · simp only [hzero, ne_eq, not_true_eq_false, if_false] at hne ⊢
      exact hinferred hne
    · simp [hzero]

end FramesGo

theorem ReturnsTo.grow {Γ Γ' : Typing} {top : Frame} {outer fs : List Frame} {value : Option Nat}
    (h : ReturnsTo Γ top value) (hΓ : Grows Γ Γ') (hgo : FramesGo (top :: outer) fs) : ∃ top' outer',
    fs = top' :: outer' ∧ ReturnsTo Γ' top' value := by
  cases hgo with
  | @top _ b _ hresult hinferred =>
    have hgo : FramesGo (top :: outer) (b :: outer) := .top hresult hinferred
    refine ⟨b, outer, rfl, ?_⟩
    cases value with
    | none =>
      have hwanted := hgo.wanted h.1
      exact ⟨hwanted ▸ h.1, hresult ▸ h.2⟩
    | some x =>
      have hwanted := hgo.wanted h.1
      exact ⟨hwanted ▸ h.1, hwanted ▸ h.2.grow hΓ trivial⟩

theorem Framed.same (h : Framed s) (hΓ : Grows s.typing s'.typing) (hframes : s'.frames = s.frames) :
    Framed s' := by
  intro top htop
  rw [hframes] at htop
  exact ⟨(h top htop).1.grow hΓ, (h top htop).2.grow hΓ⟩

theorem Passes.executes (h : Passes env s s' ns) (hframed : Framed s) : Executes env s s' ns where
  visits := h.visits
  frames := h.frames ▸ .refl _
  framed := hframed.same h.typing h.frames

namespace Executes

theorem typing (h : Executes env s s' ns) : Grows s.typing s'.typing := h.visits.typing

theorem append (h : Executes env s s' ns) (hscene : Scene env) (h' : Executes env s' s'' ns') :
    Executes env s s'' (ns ++ ns') :=
  ⟨h.visits.append hscene h'.visits, h.frames.trans h'.frames, h'.framed⟩

end Executes

theorem ReturnsIn.later (h : ReturnsIn env s id) (hs : Executes env s s' ns) : ReturnsIn env s' id := by
  intro r value hr hf
  obtain ⟨top, outer, hframes, hto⟩ := h r value hr hf
  have hgo := hs.frames
  rw [hframes] at hgo
  exact hto.grow hs.typing hgo

/-- A statement without statements in it that is no return. -/
theorem ReturnsIn.of_form (hf : env.tree.form? id = some f) (hsub : f.substatements = [])
    (hret : ∀ value, f ≠ .ret value) :
    ReturnsIn env s id := by
  intro r value hr hform
  cases hr with
  | here => exact absurd (Option.some.inj (hf.symm.trans hform)) (hret value)
  | part hg hc =>
    obtain rfl := Option.some.inj (hf.symm.trans hg)
    rw [hsub] at hc
    exact absurd hc List.not_mem_nil

/-- The returns in a statement are those in its parts. -/
theorem ReturnsIn.of_parts (hf : env.tree.form? id = some f) (hret : ∀ value, f ≠ .ret value)
    (h : ∀ c ∈ f.substatements, ReturnsIn env s c) : ReturnsIn env s id := by
  intro r value hr hform
  cases hr with
  | here => exact absurd (Option.some.inj (hf.symm.trans hform)) (hret value)
  | part hg hc hr =>
    obtain rfl := Option.some.inj (hf.symm.trans hg)
    exact h _ hc r value hr hform

/-- A node that obeys its rule was visited with what stands below it. -/
theorem Visits.self (h : Visits env s s' ns) (hid : Judged env s'.typing id) : Visits env s s' (id :: ns) where
  toSpreads := h.toSpreads.mono (List.subset_cons_self _ _)
  orderly := h.orderly
  judged := List.forall_mem_cons.2 ⟨hid, h.judged⟩

theorem Executes.self (h : Executes env s s' ns) (hid : Judged env s'.typing id) : Executes env s s' (id :: ns) :=
  ⟨h.visits.self hid, h.frames, h.framed⟩

theorem Orderly.withFrames (h : Orderly env s) (fs : List Frame) : Orderly env { s with frames := fs } :=
  ⟨h.stocked, h.sound, h.has, h.aliases, h.signed, h.unsigned, h.busy⟩

theorem Visits.withFrames (h : Visits env s s' ns) (fs : List Frame) : Visits env s { s' with frames := fs } ns :=
  ⟨⟨h.typing, h.busy, h.fresh, h.done, h.kept⟩, h.orderly.withFrames fs, h.judged⟩

theorem Ready.withFrames {steps : Nat} (h : Ready env s ns steps) (fs : List Frame) : Ready env
    { s with frames := fs } ns steps :=
  ⟨⟨h.prepared.placed, h.orderly.withFrames fs, h.prepared.supplied, h.prepared.fresh⟩, h.lt⟩

/-- What the function around a place returns was found out. -/
theorem Passes.infers {top : Frame} {outer : List Frame} (h : Passes env s s' ns) (hframed : Framed s)
    (hs : s.frames = top :: outer) (hzero : top.inferred = 0) (hhas : s'.types.Has τ) :
    Executes env s { s' with frames := { top with inferred := τ } :: outer } ns where
  visits := h.visits.withFrames _
  frames := hs ▸ .top rfl fun hne => absurd hzero hne
  framed := by
    intro top' htop
    obtain rfl := Option.some.inj htop
    exact ⟨(hframed top (by simp [hs])).1.grow h.typing, .inr hhas⟩

/-- The innermost frame is changed. -/
theorem quiet_modifyFrame (change : Frame → Frame) (top : Frame) (outer : List Frame) :
    Quiet (s.frames = top :: outer) s (modifyFrame change) fun s' _ => s' =
      { s with frames := change top :: outer } := by
  refine .modify ?_ fun hframes => by simp only [hframes]
  split <;> rfl

/-! ### Bodies -/

/-- The body of a function was visited inside its frame, and gives back what the function returns. -/
structure Delivers (env : Env) (s s' : State) (inner : Nat) : Prop extends Executes env s s'
    (listing env.tree inner) where
  returns : ∀ top ∈ s'.frames.head?, ∀ written : Option Nat, (written.isSome → top.result ≠ 0) →
    s'.typing.Returns env.tree written inner top.outcome

section

variable (hscene : Scene env) {depth : Nat}
include hscene

/-- The statements of a block are visited one after another. -/
theorem quiet_stmts (h : Completes env depth) (stmts : List Nat) (hstmts : ∀ c ∈ stmts, IsStmt env.tree c)
    (s : State) :
    Quiet (Ready env s (stmts.flatMap (listing env.tree)) (depth + 1) ∧ Framed s) s
      (stmts.forM (Check.stmt env depth))
      fun s' _ => Executes env s s' (stmts.flatMap (listing env.tree)) ∧ ∀ c ∈ stmts, ReturnsIn env s' c := by
  induction stmts generalizing s with
  | nil => exact .pure fun ⟨hready, hframed⟩ => ⟨(Passes.nil hready.orderly).executes hframed, nofun⟩
  | cons c rest ih =>
    rw [List.forall_mem_cons] at hstmts
    refine (h.stmt s c hstmts.1).bind (fun ⟨hready, hframed⟩ => ⟨hready.front hscene, hframed⟩) fun s₁ _ => ?_
    refine (ih hstmts.2 s₁).imp ?_ ?_
    · rintro ⟨⟨hready, -⟩, hexec, -⟩
      obtain ⟨hprepared, hlt⟩ := hready
      rw [List.flatMap_cons, List.length_append] at hlt
      exact ⟨⟨hprepared.back hscene hexec.visits, by omega⟩, hexec.framed⟩
    · rintro s₂ - ⟨-, hexec, hreturns⟩ ⟨hexec', hreturns'⟩
      exact ⟨hexec.append hscene hexec', List.forall_mem_cons.2 ⟨hreturns.later hexec', hreturns'⟩⟩

omit hscene in
/-- What is no expression cannot be checked as one. -/
theorem quiet_notExpr {g : Form} (hf : env.tree.form? id = some g) (hnot : g.isExpression = false) {want : Nat}
    {Q : State → Nat → Prop} : Quiet (2 ≤ depth) s (Check.expr env depth id want) Q := by
  match depth with
  | 0 =>
    unfold Check.expr
    exact .pure fun h => by omega
  | 1 =>
    unfold Check.expr Check.exprType
    exact (quiet_record id 0).imp (fun h => h) fun _ _ h => by omega
  | depth + 2 =>
    have hreport : Quiet True s (Check.exprType env (depth + 1) id want) fun _ _ => False := by
      unfold Check.exprType
      simp only [hf]
      cases g <;> first | exact .reported_pure | simp [Form.isExpression] at hnot
    unfold Check.expr
    exact hreport.bind (fun _ => trivial) fun s' τ => (quiet_record id τ).imp (fun h => h) fun _ _ h => h.2.elim

/-- What declares nothing can be visited when what stands below it can be. -/
theorem Ready.statement (hf : env.tree.form? id = some f) (hstmt : f.isStatement = true)
    (hnot : env.tree.isDeclaration id = false) {steps : Nat}
    (hready : Ready env s (listing env.tree id) (steps + 3)) :
    Ready env s (f.children.flatMap (listing env.tree)) steps := by
  have htype : f.isType = false := by cases f <;> first | rfl | exact nomatch hstmt
  refine hready.parts hscene.linked hf htype fun u hu hd => ?_
  have hmem : u ∈ listing env.tree id := by
    rw [listing_eq hscene.linked hf, htype]
    exact List.mem_cons_of_mem _ hu
  obtain ⟨-, hdecl, -⟩ := hscene.declared u (hready.prepared.mem_reached hmem) id hd
  exact nomatch hdecl.symm.trans hnot

theorem listing_of_isStatement (hf : env.tree.form? id = some f) (hstmt : f.isStatement = true) :
    listing env.tree id = id :: f.children.flatMap (listing env.tree) := by
  have htype : f.isType = false := by cases f <;> first | rfl | exact nomatch hstmt
  rw [listing_eq hscene.linked hf, htype]
  rfl

omit hscene in
theorem Delivers.of_block {stmts : List Nat} (hg : env.tree.form? inner = some (.block stmts))
    (h : Executes env s s' (listing env.tree inner)) (hreturns : ReturnsIn env s' inner) :
    Delivers env s s' inner := by
  refine ⟨h, fun top htop written hwritten => ?_⟩
  have hto {r : Nat} {value : Option Nat} (hr : env.tree.Within inner r)
    (hf : env.tree.form? r = some (.ret value)) :
      ReturnsTo s'.typing top value := by
    obtain ⟨top', outer, hframes, hto⟩ := hreturns r value hr hf
    rw [hframes] at htop
    obtain rfl := Option.some.inj htop
    exact hto
  simp only [Returns, hg]
  refine ⟨fun r x hr hf => ?_, fun r hr hf hsome => ?_⟩
  · obtain ⟨hne, hfits⟩ := hto hr hf
    rwa [Frame.outcome_eq hne]
  · obtain ⟨hne, hvoid⟩ := hto hr hf
    rw [Frame.outcome_eq hne, ← hvoid (hwritten hsome)]
    exact if_pos (hwritten hsome)

omit hscene in
theorem Delivers.of_expr {top : Frame} {outer : List Frame} (hg : IsExpr env.tree inner)
    (h : Executes env s s' (listing env.tree inner)) (hframes : s'.frames = top :: outer)
    (hfits : top.outcome ≠ voidId → s'.typing.Fits inner top.outcome) : Delivers env s s' inner := by
  refine ⟨h, fun top' htop written _ => ?_⟩
  rw [hframes] at htop
  obtain rfl := Option.some.inj htop
  obtain ⟨g, hg, hexpr⟩ := hg
  unfold Returns
  split
  · rename_i stmts hblock
    obtain rfl := Option.some.inj (hg.symm.trans hblock)
    cases hexpr
  · exact hfits

/-- Inside its frame the body of a function gives back what the function returns. -/
theorem quiet_inner (h : Completes env depth) (hf : env.tree.form? id = some f) (hb : f.body? = some inner)
    (result : Nat) (outer : List Frame) {β : Type} {rest : CheckM β} {Q : State → β → Prop}
    (hrest : ∀ s', Quiet (P ∧ Delivers env s s' inner) s' rest Q)
    (hP : P → (Ready env s (listing env.tree inner) (depth + 1) ∧ Framed s) ∧ s.frames = { result } :: outer) :
    Quiet P s (do
      match env.tree.form? inner with
      | some (.block stmts) => stmts.forM (Check.stmt env depth)
      | _ =>
        let got ← Check.expr env depth inner result
        if result = 0 then modifyFrame ({ · with inferred := got })
        else if result ≠ voidId then expect (env.tree.span inner) result got
      rest) Q := by
  have hpart : (.node, inner) ∈ f.parts := by
    cases f with
    | funcDecl | arrowFunc =>
      obtain rfl := Option.some.inj hb
      simp [Form.parts]
    | _ => cases hb
  obtain ⟨-, -, g, hg, -⟩ := hscene.linked.fits hf _ hpart
  split
  · rename_i stmts hblock
    have hstmts : ∀ c ∈ stmts, IsStmt env.tree c :=
      fun c hc => hscene.linked.statement_part hblock (by simp [Form.parts, hc])
    have hlist := listing_of_isStatement hscene hblock rfl
    refine (quiet_stmts hscene h stmts hstmts s).bind (fun hp => ⟨?_, (hP hp).1.2⟩) fun s₁ _ =>
      (hrest s₁).imp ?_ fun _ _ _ hq => hq
    · have hnot : env.tree.isDeclaration inner = false := by simp [Tree.isDeclaration, hblock]
      exact ((hP hp).1.1.mono (by omega : depth + 1 ≤ depth + 1 + 3)).statement hscene hblock rfl hnot
    · rintro ⟨hp, hexec, hreturns⟩
      refine ⟨hp, .of_block hblock ?_ (.of_parts hblock (by simp) hreturns)⟩
      rw [hlist]
      exact hexec.self (.intro hblock trivial)
  · -- the body is an expression
    have hthen (s₁ : State) (got : Nat) :
      Quiet (P ∧ Passes env s s₁ (listing env.tree inner) ∧ s₁.typing.HasType inner got ∧
        IsExpr env.tree inner) s₁ (do
          if result = 0 then modifyFrame ({ · with inferred := got })
          else if result ≠ voidId then expect (env.tree.span inner) result got
          rest) Q := by
      -- if the result is known, it is what the function returns
      have hknown (hp : P ∧ Passes env s s₁ (listing env.tree inner) ∧ s₁.typing.HasType inner got ∧
        IsExpr env.tree inner)
          (hne : result ≠ 0) (hfits : result ≠ voidId → s₁.types.assignable result got = true) :
          Delivers env s s₁ inner := by
        obtain ⟨hp, hpasses, hgot, hexpr⟩ := hp
        have houtcome : ({ result } : Frame).outcome = result := by simp [Frame.outcome, Frame.wanted, hne]
        refine .of_expr hexpr (hpasses.executes (hP hp).1.2) (hpasses.frames.trans (hP hp).2) fun hvoid => ?_
        rw [houtcome] at hvoid ⊢
        exact ⟨got, hgot, hfits hvoid⟩
      refine .ite (fun hzero => ?_) fun hne => .ite (fun hvalue => ?_) fun hvoid => ?_
      · refine (quiet_modifyFrame _ { result } outer).bind (fun hp => hp.2.1.frames.trans (hP hp.1).2) fun s₂ _ =>
          (hrest s₂).imp ?_ fun _ _ _ h => h
        rintro ⟨⟨hp, hpasses, hgot, hexpr⟩, rfl⟩
        have hne := (hpasses.has hgot).ne_zero
        have houtcome : ({ result, inferred := got } : Frame).outcome = got := by
          simp [Frame.outcome, Frame.wanted, hzero, hne]
        refine ⟨hp, .of_expr hexpr ⟨hpasses.visits.withFrames _, ?_, ?_⟩ rfl fun _ => ?_⟩
        · exact (hP hp).2 ▸ .top rfl fun h => absurd rfl h
        · intro top htop
          obtain rfl := Option.some.inj htop
          exact ⟨((hP hp).1.2 { result } (by simp [(hP hp).2])).1.grow hpasses.typing, .inr (hpasses.has hgot)⟩
        · rw [houtcome]
          exact .of_hasType hgot
      · refine (Quiet.expect _ result got).bind (fun hp => hp) fun s₂ _ => (hrest s₂).imp ?_ fun _ _ _ h => h
        rintro ⟨hp, rfl, hassign⟩
        exact ⟨hp.1, hknown hp hne fun _ => hassign hne (hp.2.1.has hp.2.2.1).ne_zero⟩
      · refine (hrest s₁).imp (fun hp => ⟨hp.1, hknown hp hne fun h => absurd h hvoid⟩) fun _ _ _ h => h
    by_cases hexpr : g.isExpression = true
    · refine (h.expr s inner result ⟨g, hg, hexpr⟩).bind ?_ fun s₁ got => (hthen s₁ got).imp ?_ fun _ _ _ hq => hq
      · intro hp
        obtain ⟨⟨hready, hframed⟩, hs⟩ := hP hp
        exact ⟨hready, (hframed { result } (by simp [hs])).1⟩
      · exact fun hp => ⟨hp.1, hp.2.1, hp.2.2, g, hg, hexpr⟩
    · refine (quiet_notExpr hg (by simpa using hexpr)).bind (Q := fun _ _ => False) (fun hp => ?_) fun s₁ got => ?_
      · have hlt := (hP hp).1.1.lt
        have hpos : 0 < (listing env.tree inner).length :=
          List.length_pos_of_mem (self_mem_listing hscene.linked hg)
        omega
      · exact (hthen s₁ got).imp (fun hp => hp.2.elim) fun _ _ _ hq => hq

omit hscene in
/-- When the body was left, the function returns what its frame says. -/
theorem Delivers.ran {s₂ s₄ : State} {written : Option Nat} {result : Nat} (hi : Interns (s.entered id) s₂)
    (hwritten : ∀ w ∈ written, s₂.types.Has result ∧ Denotes env s₂.typing w result)
    (h : Delivers env { s₂ with frames := { result } :: s₂.frames } s₄ inner) (results : List (Nat × Nat)) :
    ∃ top, s₄.frames = top :: s.frames ∧ top.result = result ∧
      Ran env s { s₄ with frames := s₄.frames.tail, busy := s₄.busy.erase id, results } id written inner
        top.outcome := by
  obtain ⟨top, htop, hresult⟩ : ∃ top, s₄.frames = top :: s₂.frames ∧ top.result = result := by
    have hgo : FramesGo ({ result } :: s₂.frames) s₄.frames := h.frames
    generalize s₄.frames = fs at hgo
    cases hgo with
    | top hresult => exact ⟨_, rfl, hresult⟩
  have htop : s₄.frames = top :: s.frames := htop.trans (congrArg _ hi.frames)
  have hvisits := h.visits
  have htyping : Grows s.typing s₄.typing := hi.typing.trans hvisits.typing
  have hframed := h.framed top (by simp [htop])
  have hstocked := hvisits.orderly.stocked
  have hhas : s₄.types.Has top.outcome := by
    unfold Frame.outcome Frame.wanted
    by_cases hzero : top.result = 0
    · by_cases hinferred : top.inferred = 0
      · have hvoid : s₄.types.Has voidId := hstocked.has_primitive "void" rfl
        simpa [hzero, hinferred] using hvoid
      · simpa [hzero, hinferred] using hframed.2.resolve_left hinferred
    · simpa [hzero] using hframed.1.resolve_left hzero
  have hdone : s₂.done = id :: s.done := hi.done
  have hkept : id :: s.done ⊆ s₄.done := fun v hv => hvisits.kept (hdone ▸ hv)
  refine ⟨top, htop, hresult,
    ⟨⟨htyping, ?_, fun v τ hτ => ?_, fun v hv => ?_, fun v hv => ?_⟩, fun v τ hτ => ?_, ?_,
    hvisits.judged, ?_⟩, hhas, ?_, ?_, hkept List.mem_cons_self⟩
  · -- the function is open no more
    have hbusy : s₄.busy = id :: s.busy := hvisits.busy.trans hi.busy
    change s₄.busy.erase id = s.busy
    rw [hbusy, List.erase_cons_head]
  · rcases hvisits.fresh v τ hτ with ⟨σ, hσ⟩ | hmem | hearly
    · exact .inl ⟨σ, hi.hasType.1 hσ⟩
    · exact .inr (.inl (List.mem_cons_of_mem _ hmem))
    · exact .inr (.inr hearly)
  · rcases hvisits.done v hv with hv | hv
    · have hv : v ∈ id :: s.done := hdone ▸ hv
      rcases List.mem_cons.1 hv with rfl | hv
      · exact .inr List.mem_cons_self
      · exact .inl hv
    · exact .inr (List.mem_cons_of_mem _ hv)
  · exact hkept (List.mem_cons_of_mem _ hv)
  · exact (hvisits.fresh v τ hτ).imp_left fun ⟨σ, hσ⟩ => ⟨σ, hi.hasType.1 hσ⟩
  · have horderly := hvisits.orderly
    exact ⟨horderly.stocked, horderly.sound, horderly.has, horderly.aliases, horderly.signed, horderly.unsigned,
      fun d hd => horderly.busy d (List.mem_of_mem_erase hd)⟩
  · change s₄.frames.tail = s.frames
    rw [htop, List.tail_cons]
  · intro w hw
    obtain ⟨hhas, hdenotes⟩ := hwritten w hw
    have hne := hhas.ne_zero
    have houtcome : top.outcome = result := by simp [Frame.outcome, Frame.wanted, hresult, hne]
    rw [houtcome]
    exact hdenotes.grow hvisits.typing fun _ _ => trivial
  · refine h.returns top (by simp [htop]) written fun hsome => ?_
    obtain ⟨w, hw⟩ := Option.isSome_iff_exists.1 hsome
    exact hresult ▸ (hwritten w hw).1.ne_zero

omit hscene in
/-- The body of a function is left with the result that is known, or with what its frame says. -/
theorem quiet_leave (id result : Nat) : Quiet True s (do
    let inferred := ((← get).frames.head?.map (·.inferred)).getD 0
    let result := if result ≠ 0 then result else if inferred ≠ 0 then inferred else voidId
    modify fun s => { s with frames := s.frames.tail, busy := s.busy.erase id, results := (id,
      result) :: s.results }
    return result) fun s' ρ =>
      (∃ results, s' = { s with frames := s.frames.tail, busy := s.busy.erase id, results }) ∧
      ∀ top outer, s.frames = top :: outer → top.result = result → ρ = top.outcome := by
  refine ⟨Nat.le_refl _, fun _ _ => ⟨⟨_, rfl⟩, ?_⟩⟩
  rintro top outer hframes rfl
  change (if top.result ≠ 0 then top.result else if (s.frames.head?.map (·.inferred)).getD 0 ≠ 0 then
    (s.frames.head?.map (·.inferred)).getD 0 else voidId) = top.outcome
  by_cases hzero : top.result = 0 <;> simp [hframes, Frame.outcome, Frame.wanted, hzero]

theorem Completes.body_succ (h : Completes env depth) (s : State) (id expected : Nat) (f : Form) (inner : Nat)
    (hf : env.tree.form? id = some f) (hb : f.body? = some inner) :
    Quiet (id ∉ s.done → Ready env (s.entered id) (listing env.tree inner) (depth + 1) ∧ Wanted s expected ∧
        id ∈ env.tree.reached) s
      (Check.body env (depth + 1) id expected) fun s' ρ =>
        (id ∈ s.done → s' = s) ∧ (id ∉ s.done → Ran env s s' id f.type? inner ρ) := by
  unfold Check.body
  simp only [hf, Option.getD_some, hb]
  refine .read (.ite (fun hdone => .read (.pure fun _ => ?_)) fun hdone => ?_)
  · have hdone : id ∈ s.done := by simpa using hdone
    exact ⟨fun _ => rfl, fun hnot => absurd hdone hnot⟩
  have hdone : id ∉ s.done := by simpa using hdone
  refine (Quiet.modify (Q := fun s₁ _ => s₁ = s.entered id) rfl fun _ => rfl).bind (fun hp => hp) fun s₁ _ => ?_
  -- once the result is known that is written or expected, the body is visited in a frame of its own
  have hthen (s₂ : State) (result : Nat) : Quiet (Ready env (s.entered id) (listing env.tree inner) (depth + 1) ∧
      Interns (s.entered id) s₂ ∧ Wanted s₂ result ∧ ∀ w ∈ f.type?, s₂.types.Has result ∧
        Denotes env s₂.typing w result) s₂ (do
        modify fun s => { s with frames := { result } :: s.frames }
        match env.tree.form? inner with
        | some (.block stmts) => stmts.forM (Check.stmt env depth)
        | _ =>
          let got ← Check.expr env depth inner result
          if result = 0 then modifyFrame ({ · with inferred := got })
          else if result ≠ voidId then expect (env.tree.span inner) result got
        let inferred := ((← get).frames.head?.map (·.inferred)).getD 0
        let result := if result ≠ 0 then result else if inferred ≠ 0 then inferred else voidId
        modify fun s => { s with frames := s.frames.tail, busy := s.busy.erase id, results := (id,
          result) :: s.results }
        return result) fun s' ρ => (id ∈ s.done → s' = s) ∧ (id ∉ s.done → Ran env s s' id f.type? inner ρ) := by
    refine (Quiet.modify (Q := fun s₃ _ => s₃ = { s₂ with frames := { result } :: s₂.frames }) rfl
      fun _ => rfl).bind
      (fun hp => hp) fun s₃ _ => ?_
    refine quiet_inner hscene h hf hb result s₂.frames
      (fun s₄ => (quiet_leave id result).imp (fun _ => trivial) ?_) ?_
    · rintro s₅ ρ ⟨⟨⟨hready, hi, hwanted, hwritten⟩, rfl⟩, hdelivers⟩ ⟨⟨results, rfl⟩, hρ⟩
      refine ⟨fun h => absurd h hdone, fun _ => ?_⟩
      obtain ⟨top, htop, hresult, hran⟩ := hdelivers.ran hi hwritten results
      exact hρ top s.frames htop hresult ▸ hran
    · rintro ⟨⟨hready, hi, hwanted, hwritten⟩, rfl⟩
      refine ⟨⟨(hready.interns hi).withFrames _, fun top htop => ?_⟩, rfl⟩
      obtain rfl := Option.some.inj htop
      exact ⟨hwanted, .none _⟩
  split
  · rename_i w hw
    refine (resolvesBy_part hscene hf hw s₁).bind ?_ fun s₂ ρ => (hthen s₂ ρ).imp ?_ fun _ _ _ h => h
    · rintro ⟨hready, rfl⟩
      exact ⟨(hready hdone).1.orderly.supplies, (hready hdone).2.2⟩
    · rintro ⟨⟨hready, rfl⟩, hρ⟩
      refine ⟨(hready hdone).1, hρ.interns, .inr hρ.has, fun w' hw' => ?_⟩
      obtain rfl := Option.some.inj (hw.symm.trans hw')
      exact ⟨hρ.has, hρ.denotes⟩
  · rename_i hw
    refine (hthen s₁ expected).imp ?_ fun _ _ _ h => h
    rintro ⟨hready, rfl⟩
    exact ⟨(hready hdone).1, .refl (hready hdone).1.orderly.stocked, (hready hdone).2.1, by simp [hw]⟩

/-! ### Functions -/

/-- A function can be given types for its parameters when it can be visited. -/
theorem Ready.untyped {steps : Nat} (hready : Ready env s (listing env.tree id) steps)
    (hf : env.tree.form? id = some f) (hb : f.body? = some inner)
    (hid : ¬ DeclaresFunction env.tree id ∨ IsInferred env.tree id) :
    ∀ p ∈ f.params, p ∈ env.tree.reached ∧ s.info[p]? = none := by
  intro p hp
  have hmem : p ∈ listing env.tree id := by
    rw [listing_of_body? hscene hf hb]
    exact List.mem_cons_of_mem _ (List.mem_append_left _ (mem_heading_of_params hscene hf hp))
  refine ⟨reached_of_outside (hready.prepared.mem_reached hmem), Option.eq_none_iff_forall_ne_some.2 fun τ hτ => ?_⟩
  exact (Late.param hscene (paramsOf_eq hf ▸ hp) hid).early ((hready.prepared.fresh p hmem).2 τ hτ)

/-- When the parameters were given types, the head of the function was visited, and its body was not entered yet. -/
theorem Ready.headed {s₁ : State} {steps : Nat} (hready : Ready env s (listing env.tree id) steps)
    (hassigns : Assigns env s s₁ f.params (some σs)) (hf : env.tree.form? id = some f) (hb : f.body? = some inner)
    (hid : ¬ DeclaresFunction env.tree id ∨ IsInferred env.tree id) :
    Parametrizes env s s₁ f.params σs ∧ Passes env s s₁ (heading env.tree f) ∧ id ∉ s₁.done := by
  have hsigns := hassigns.parametrizes hscene hf fun p hp => (hready.untyped hscene hf hb hid p hp).2
  refine ⟨hsigns, hsigns.passes hscene hready.orderly hf hid, ?_⟩
  exact hsigns.fills.done ▸ (hready.prepared.fresh id (self_mem_listing hscene.linked hf)).1

/-- What a function obeys when its head and its body were visited. -/
theorem Parametrizes.obeys {s₁ s₂ s₃ : State} (h : Parametrizes env s s₁ f.params σs)
    (hran : Ran env s₁ s₂ id f.type? inner ρ) (hi : Interns s₂ s₃) (hf : env.tree.form? id = some f)
    (hb : f.body? = some inner) {Γ : Typing} (hΓ : Grows s₃.typing Γ) (hτ : Γ.HasType id τ)
    (hmeans : Γ.Means τ (.func σs ρ)) : Judged env Γ id ∧ Signed env Γ id := by
  have hlater := hi.typing.trans hΓ
  have hreturns := hran.returns.grow hscene.linked hlater (fun _ _ => trivial) trivial
  obtain ⟨hcallable, hsigned⟩ := h.signed hf (hran.typing.trans hlater) hτ hmeans fun w hw =>
    (hran.denotes w hw).grow hlater fun _ _ => trivial
  refine ⟨.intro hf ?_, hsigned⟩
  cases f with
  | funcDecl | arrowFunc =>
    obtain rfl := Option.some.inj hb
    exact ⟨ρ, hcallable, hreturns⟩
  | _ => exact nomatch hb

theorem quiet_arrow (h : Completes env depth) {written : Option Nat} {want : Nat}
    (hf : env.tree.form? id = some (.arrowFunc params written inner)) :
    Quiet (Ready env s (listing env.tree id) (depth + 3) ∧ Wanted s want) s (Check.exprType env (depth + 1) id want)
      fun s' τ => Found env s s' id τ
        (heading env.tree (.arrowFunc params written inner) ++ listing env.tree inner) := by
  have hnot : ¬ DeclaresFunction env.tree id := fun hd =>
    hd.kind_ne (symbolKind_of_form hf) (by simp [SymbolKind.ofForm])
  have hlist := listing_of_body? hscene hf rfl
  unfold Check.exprType
  simp only [hf]
  refine .resolved? ?_
  have hparams : ∀ p ∈ params, ∃ name type, env.tree.form? p = some (.param name type) := fun p hp =>
    hscene.linked.param_part hf (mem_parts_of_params hp)
  refine (quiet_paramTypes hscene (s.types.resolved? want) params hparams 0 s).bind ?_ fun s₁ r => ?_
  · rintro ⟨hready, -⟩
    refine ⟨hready.orderly.supplies, fun p hp => ?_, fun σs ρ heq σ hσ => ?_⟩
    · exact (hready.untyped hscene hf rfl (.inl hnot) p hp).1
    · exact hready.orderly.stocked.has_parts heq σ (List.mem_cons_of_mem _ hσ)
  cases r with
  | none => exact .pure (by rintro ⟨-, σs, ⟨⟩, -⟩)
  | some σs =>
    -- the body is entered for the first time
    have hfirst (hs : (Ready env s (listing env.tree id) (depth + 3) ∧ Wanted s want) ∧
      Assigns env s s₁ params (some σs)) :
        Parametrizes env s s₁ params σs ∧ Passes env s s₁ (heading env.tree (.arrowFunc params written inner)) ∧
          id ∉ s₁.done :=
      hs.1.1.headed hscene hs.2 hf rfl (.inl hnot)
    refine (h.body s₁ id _ _ inner hf rfl).bind (fun hs _ => ?_) fun s₂ ρ =>
      .ite (fun hzero => .pure ?_) fun _ => quiet_internFunc.imp ?_ ?_
    · obtain ⟨hsigns, hpasses, -⟩ := hfirst hs
      obtain ⟨⟨hready, -⟩, -⟩ := hs
      have hinside := hready
      rw [hlist] at hinside
      refine ⟨hinside.inside hscene hpasses.visits fun u hu hd => ?_, ?_⟩
      · refine absurd hd (decl?_ne_of_isExpression hscene hf rfl (hinside.prepared.mem_reached ?_))
        exact List.mem_cons_of_mem _ (List.mem_append_right _ hu)
      · refine ⟨?_, reached_of_outside (hready.prepared.mem_reached (self_mem_listing hscene.linked hf))⟩
        split
        · rename_i ps result hwant
          exact .inr ((hready.orderly.stocked.has_parts hwant result List.mem_cons_self).extends
            hpasses.typing.types)
        · exact .none _
    · rintro ⟨hs, -, hran⟩
      exact absurd hzero (hran (hfirst hs).2.2).result.ne_zero
    · rintro ⟨hs, -, hran⟩
      obtain ⟨hsigns, -, hnew⟩ := hfirst hs
      have hran := hran hnew
      exact ⟨hran.orderly.stocked, fun p hp => (hsigns.has p hp).extends hran.typing.types, hran.result⟩
    · rintro s₃ τ ⟨hs, -, hran⟩ ⟨hinterns, -, hlookup⟩
      obtain ⟨hsigns, hpasses, hnew⟩ := hfirst hs
      have hran := hran hnew
      have hmeans : s₃.types.resolved? τ = some (.func σs ρ) := Interner.resolved?_of_lookup? hlookup (by simp)
      refine ⟨(hran.toEnters.after hscene hpasses).interns hscene.linked hinterns, ⟨_, hlookup⟩, fun Γ hΓ hτ => ?_⟩
      exact (Parametrizes.obeys hscene hsigns hran hinterns hf rfl hΓ hτ (hΓ.types.resolved? hmeans)).1

/-! ### Declared functions -/

omit hscene in
/-- The type of a declared function is made and noted. -/
theorem quiet_sign (d : Nat) : Quiet (s.types.Stocked ∧ (∀ σ ∈ σs, s.types.Has σ) ∧ s.types.Has ρ) s (do
    let type ← internFunc σs ρ
    modify fun s => { s with signatures := (d, type) :: s.signatures }
    record d type) fun s' τ => ∃ s₁, Interns s s₁ ∧ s₁.types.Has τ ∧ s₁.types.resolved? τ = some (.func σs ρ) ∧
      s' = s₁.signed d τ := by
  refine quiet_internFunc.bind (fun hs => hs) fun s₁ τ =>
    (Quiet.modify (Q := fun s₂ _ => s₂ = { s₁ with signatures := (d, τ) :: s₁.signatures }) rfl fun _ => rfl).bind
      (fun hs => hs) fun s₂ _ => (quiet_record d τ).imp (fun hs => hs) ?_
  rintro s₃ σ ⟨⟨-, hinterns, -, hlookup⟩, rfl⟩ ⟨rfl, hs₃⟩
  have hhas : s₁.types.Has σ := ⟨_, hlookup⟩
  exact ⟨s₁, hinterns, hhas, Interner.resolved?_of_lookup? hlookup nofun, hs₃ hhas.ne_zero⟩

omit hscene in
theorem exists_body?_of_isInferred (hd : DeclaresFunction env.tree d) (hf : env.tree.form? d = some f)
    (hw : f.type? = none) :
    ∃ inner, f.body? = some inner := by
  obtain ⟨g, hg, ⟨name, params, result, body, rfl⟩ | ⟨name, params, result, rfl⟩⟩ := hd.form
  · obtain rfl := Option.some.inj (hf.symm.trans hg)
    exact ⟨body, rfl⟩
  · obtain rfl := Option.some.inj (hf.symm.trans hg)
    exact nomatch hw

theorem Completes.signature_succ (h : Completes env depth) (s : State) (d : Nat)
    (hd : DeclaresFunction env.tree d) :
    Quiet (Orderly env s ∧ Known env s d ∧ 0 < depth + 1 ∧ d ∈ env.tree.reached) s
      (Check.signature env (depth + 1) d)
      fun s' τ => Passes env s s' [] ∧ s'.typing.HasType d τ := by
  obtain ⟨f, hf, -⟩ := hd.form
  have hparams : ∀ p ∈ f.params, ∃ name type, env.tree.form? p = some (.param name type) := fun p hp =>
    hscene.linked.param_part hf (mem_parts_of_params hp)
  have hreached (hs : Orderly env s ∧ Known env s d ∧ 0 < depth + 1 ∧ d ∈ env.tree.reached) :
      Supplies env s ∧ (∀ p ∈ f.params, p ∈ env.tree.reached) ∧ Expected s none :=
    ⟨hs.1.supplies, fun p hp => hscene.linked.reached_part hs.2.2.2
      (mem_children_of_parts hf (mem_parts_of_params hp)), .none s⟩
  unfold Check.signature
  simp only [hf, Option.getD_some]
  refine .read ?_
  cases hlookup : s.signatures.lookup d with
  | some τ => exact .pure fun hs => ⟨.nil hs.1, (hs.1.signed d τ hlookup).2.1⟩
  | none =>
    refine (quiet_paramTypes hscene none f.params hparams 0 s).bind hreached fun s₁ r => ?_
    cases r with
    | none => exact .pure (by rintro ⟨-, σs, ⟨⟩, -⟩)
    | some σs =>
      cases hw : f.type? with
      | some w =>
        have hnot : ¬ IsInferred env.tree d := by simp [IsInferred, hf, hw]
        -- the parameters have no types yet
        have hsigns (hs : (Orderly env s ∧ Known env s d ∧ 0 < depth + 1 ∧ d ∈ env.tree.reached) ∧
            Assigns env s s₁ f.params (some σs)) : Parametrizes env s s₁ f.params σs :=
          hs.2.parametrizes hscene hf fun p hp => (hs.1.1.unsigned d hd hlookup).2 hnot p (paramsOf_eq hf ▸ hp)
        refine (resolvesBy_part hscene hf hw s₁).bind ?_ fun s₂ ρ =>
          .read (.ite (fun hzero => .pure ?_) fun _ => ?_)
        · exact fun hs => ⟨(hsigns hs).fills.supplies hs.1.1.supplies, hs.1.2.2.2⟩
        · rintro ⟨-, hρ⟩
          simp [hρ.has.ne_zero] at hzero
        refine (quiet_sign d).imp ?_ ?_
        · rintro ⟨hs, hρ⟩
          exact ⟨hρ.interns.stocked, fun σ hσ => ((hsigns hs).has σ hσ).extends hρ.interns.types, hρ.has⟩
        rintro s₄ τ ⟨hs, hρ⟩ ⟨s₃, hi, hhas, hmeans, rfl⟩
        have hsigns := hsigns hs
        have hfills : Fills s s₃ f.params := by simpa using (hsigns.fills.trans hρ.interns.fills).trans hi.fills
        have hps : ∀ p ∈ f.params, p ∈ paramsOf env.tree d := fun p hp => paramsOf_eq hf ▸ hp
        obtain ⟨horderly, hgrows⟩ := hs.1.1.sign hscene hfills hps hd hlookup hhas fun Γ hΓ hτ =>
          (hsigns.signed hf ((hρ.interns.typing.trans hi.typing).trans hΓ) hτ (hΓ.types.resolved? hmeans)
            fun w' hw' => by
            obtain rfl := Option.some.inj (hw.symm.trans hw')
            exact hρ.denotes.grow (hi.typing.trans hΓ) fun _ _ => trivial).2
        refine ⟨⟨⟨⟨hfills.typing.trans hgrows, hfills.busy, fun v σ hσ => ?_, fun v hv => .inl (hfills.done ▸ hv),
          fun v hv => hfills.done ▸ hv⟩, horderly, by simp⟩,
          hfills.frames⟩, hasType_signed.2 (.inl ⟨rfl, rfl⟩)⟩
        rcases hasType_signed.1 hσ with ⟨rfl, -⟩ | ⟨-, hσ⟩
        · exact .inr (.inr (.inr ⟨v, hd, hnot, .inl rfl⟩))
        · rcases hfills.fresh v σ hσ with hσ | ⟨hmem, -⟩
          · exact .inl ⟨σ, hσ⟩
          · exact .inr (.inr (.inr ⟨d, hd, hnot, .inr (hps v hmem)⟩))
      | none =>
        -- what is known of the function is that its body is being checked
        have hbusy (hs : (Orderly env s ∧ Known env s d ∧ 0 < depth + 1 ∧ d ∈ env.tree.reached) ∧
            Assigns env s s₁ f.params (some σs)) : d ∈ s₁.busy := by
          obtain ⟨⟨horderly, hknown, -⟩, -, -, hbusy, -⟩ := hs
          rw [hbusy]
          rcases hknown with ⟨τ, hτ⟩ | ⟨-, hwritten | hmem⟩
          · cases (horderly.unsigned d hd hlookup).1.symm.trans hτ
          · exact absurd (by simp [IsInferred, hf, hw]) hwritten
          · exact hmem
        obtain ⟨inner, hb⟩ := exists_body?_of_isInferred hd hf hw
        have hrest (s₂ : State) (ρ : Nat) : Quiet False s₂ (do
            if ρ = 0 && ((none : Option Nat).isSome || (← get).busy.contains d) then return 0
            let type ← internFunc σs ρ
            modify fun s => { s with signatures := (d, type) :: s.signatures }
            record d type) fun s' τ => Passes env s s' [] ∧ s'.typing.HasType d τ :=
          .read (.ite (fun _ => .pure False.elim) fun _ => (quiet_sign d).void)
        refine .read (.ite (fun _ => .reported fun s₂ => hrest s₂ 0) fun hnot => ?_)
        refine (h.body s₁ d 0 f inner hf hb).void.bind (Q := fun _ _ => False) ?_ fun s₂ ρ =>
          (hrest s₂ ρ).imp And.right fun _ _ _ h => h
        exact fun hs => hnot (by simpa using hbusy hs)

/-- A function whose result is to be inferred does not get its type early. -/
theorem not_early_of_isInferred (hd : DeclaresFunction env.tree d) (hinferred : IsInferred env.tree d) :
    ¬ Early env.tree d := by
  rintro (htype | ⟨e, he, hwritten, rfl | hparam⟩)
  · exact hd.kind_ne htype (by simp)
  · exact hwritten hinferred
  · obtain ⟨name, type, hform⟩ := hscene.param hparam
    exact hd.kind_ne (symbolKind_of_form hform) (by simp [SymbolKind.ofForm])

/-- A function gets its type when its body was left. -/
theorem Enters.signed {s₂ s₃ : State} (h : Enters env s s₂ d ns) (hlist : Prepared env s (d :: ns))
    (hd : DeclaresFunction env.tree d) (hinferred : IsInferred env.tree d) (hi : Interns s₂ s₃)
    (hhas : s₃.types.Has τ) (hsettles : ∀ Γ, Grows s₃.typing Γ → Γ.HasType d τ → Judged env Γ d ∧ Signed env Γ d) :
    Passes env s (s₃.signed d τ) (d :: ns) := by
  have hearly := not_early_of_isInferred hscene hd hinferred
  have hnone : s₂.signatures.lookup d = none := by
    refine Option.eq_none_iff_forall_ne_some.2 fun σ hσ => ?_
    rcases h.fresh d σ (h.orderly.signed d σ hσ).2.1 with ⟨σ', hσ'⟩ | hmem | he
    · exact hearly ((hlist.fresh d List.mem_cons_self).2 σ' hσ')
    · exact (List.nodup_cons.1 (hscene.nodup.sublist hlist.placed)).1 hmem
    · exact hearly he
  obtain ⟨horderly, hgrows⟩ := h.orderly.sign hscene hi.fills nofun hd hnone hhas fun Γ hΓ hτ =>
    (hsettles Γ hΓ hτ).2
  have hall := h.interns hscene.linked hi
  refine ⟨⟨⟨hall.typing.trans hgrows, hall.spreads.busy, fun v σ hσ => ?_, hall.spreads.done, hall.spreads.kept⟩,
    horderly,
    fun v hv => ?_⟩, hall.frames⟩
  · rcases hasType_signed.1 hσ with ⟨rfl, -⟩ | ⟨-, hσ⟩
    · exact .inr (.inl List.mem_cons_self)
    · exact (hall.fresh v σ hσ).imp_right (Or.imp_left (List.mem_cons_of_mem _))
  · rcases List.mem_cons.1 hv with rfl | hv
    · exact (hsettles _ hgrows (hasType_signed.2 (.inl ⟨rfl, rfl⟩))).1
    · exact (hall.judged v hv).grow hscene.linked hgrows

/-- A function whose result is to be inferred is visited as a whole when its type is first needed. -/
theorem Completes.declare_succ (h : Completes env depth) (s : State) (d : Nat) (hd : DeclaresFunction env.tree d)
    (hinferred : IsInferred env.tree d) :
    Quiet (Ready env s (listing env.tree d) (depth + 3)) s (Check.signature env (depth + 1) d) fun s' _ =>
      Passes env s s' (listing env.tree d) ∧ d ∈ s'.done := by
  obtain ⟨f, hf, -⟩ := hd.form
  have hw : f.type? = none := by simpa [IsInferred, hf] using hinferred
  obtain ⟨inner, hb⟩ := exists_body?_of_isInferred hd hf hw
  have hlist := listing_of_body? hscene hf hb
  have hparams : ∀ p ∈ f.params, ∃ name type, env.tree.form? p = some (.param name type) := fun p hp =>
    hscene.linked.param_part hf (mem_parts_of_params hp)
  unfold Check.signature
  simp only [hf, Option.getD_some, hw]
  refine .read ?_
  cases hlookup : s.signatures.lookup d with
  | some τ =>
    refine .pure fun hready => ?_
    have hearly := (hready.prepared.fresh d (self_mem_listing hscene.linked hf)).2 τ
      (hready.orderly.signed d τ hlookup).2.1
    exact absurd hearly (not_early_of_isInferred hscene hd hinferred)
  | none =>
    refine (quiet_paramTypes hscene none f.params hparams 0 s).bind ?_ fun s₁ r => ?_
    · exact fun hready =>
        ⟨hready.orderly.supplies, fun p hp => (hready.untyped hscene hf hb (.inr hinferred) p hp).1, .none s⟩
    cases r with
    | none => exact .pure (by rintro ⟨-, σs, ⟨⟩, -⟩)
    | some σs =>
      have hfirst (hs : Ready env s (listing env.tree d) (depth + 3) ∧ Assigns env s s₁ f.params (some σs)) :
          Parametrizes env s s₁ f.params σs ∧ Passes env s s₁ (heading env.tree f) ∧ d ∉ s₁.done :=
        hs.1.headed hscene hs.2 hf hb (.inr hinferred)
      -- when the body was left, the type of the function is known
      have hrest (s₂ : State) (ρ : Nat) : Quiet ((Ready env s (listing env.tree d) (depth + 3) ∧
          Assigns env s s₁ f.params (some σs)) ∧ Ran env s₁ s₂ d f.type? inner ρ) s₂ (do
            if ρ = 0 && ((none : Option Nat).isSome || (← get).busy.contains d) then return 0
            let type ← internFunc σs ρ
            modify fun s => { s with signatures := (d, type) :: s.signatures }
            record d type) fun s' _ => Passes env s s' (listing env.tree d) ∧ d ∈ s'.done := by
        refine .read (.ite (fun hzero => .pure fun hs => ?_) fun _ => (quiet_sign d).imp ?_ ?_)
        · simp [hs.2.result.ne_zero] at hzero
        · rintro ⟨hs, hran⟩
          exact ⟨hran.orderly.stocked, fun σ hσ => ((hfirst hs).1.has σ hσ).extends hran.typing.types, hran.result⟩
        rintro s₄ τ ⟨hs, hran⟩ ⟨s₃, hi, hhas, hmeans, rfl⟩
        obtain ⟨hsigns, hpasses, -⟩ := hfirst hs
        have hprepared := hs.1.prepared
        rw [hlist] at hprepared ⊢
        refine ⟨(hran.toEnters.after hscene hpasses).signed hscene hprepared hd hinferred hi hhas fun Γ hΓ hτ => ?_,
          ?_⟩
        · exact hsigns.obeys hscene hran hi hf hb hΓ hτ (hΓ.types.resolved? hmeans)
        · change d ∈ s₃.done
          exact hi.done ▸ hran.entered
      refine .read (.ite (fun _ => .reported fun s₂ => (hrest s₂ 0).void) fun _ => ?_)
      refine (h.body s₁ d 0 f inner hf hb).bind (fun hs _ => ?_) fun s₂ ρ => (hrest s₂ ρ).imp ?_ fun _ _ _ h => h
      · obtain ⟨-, hpasses, -⟩ := hfirst hs
        have hinside := hs.1
        rw [hlist] at hinside
        refine ⟨hinside.inside hscene hpasses.visits fun u _ _ => ?_, .none _, ?_⟩
        · exact .inr ⟨hd, .inr List.mem_cons_self⟩
        · exact reached_of_outside (hs.1.prepared.mem_reached (self_mem_listing hscene.linked hf))
      · exact fun hs => ⟨hs.1, hs.2.2 (hfirst hs.1).2.2⟩

/-- The type of an expression follows from its form, whatever the form is. -/
theorem Completes.exprType_succ (h : Completes env depth) (s : State) (id want : Nat) (hid : IsExpr env.tree id) :
    Quiet (Ready env s (listing env.tree id) (depth + 3) ∧ Wanted s want) s
      (Check.exprType env (depth + 1) id want) fun s' τ =>
      Found env s s' id τ (listing env.tree id).tail := by
  obtain ⟨f, hf, hexpr⟩ := hid
  have hlist : (listing env.tree id).tail = f.children.flatMap (listing env.tree) := by
    rw [listing_of_isExpression hscene hf hexpr, List.tail_cons]
  have hbelow (hs : Ready env s (listing env.tree id) (depth + 3) ∧ Wanted s want) :
      Ready env s (f.children.flatMap (listing env.tree)) depth ∧ Wanted s want :=
        ⟨hs.1.below hscene hf hexpr, hs.2⟩
  rw [hlist]
  cases f with
  | number value => exact (quiet_number hf).imp hbelow fun _ _ _ hfound => hfound
  | string value =>
    refine (quiet_literal hf (τ := stringId) (fun _ => ?_) (fun s hs => ?_) fun Γ hτ => hτ).imp hbelow
      fun _ _ _ hfound => hfound
    · unfold Check.exprType
      simp only [hf]
    · exact hs.stocked.has_primitive "string" rfl
  | bool value =>
    refine (quiet_literal hf (τ := boolId) (fun _ => ?_) (fun s hs => ?_) fun Γ hτ => hτ).imp hbelow
      fun _ _ _ hfound => hfound
    · unfold Check.exprType
      simp only [hf]
    · exact hs.stocked.has_primitive "boolean" rfl
  | this =>
    refine (quiet_literal hf (τ := voidId) (fun _ => ?_) (fun s hs => ?_) fun Γ hτ => hτ).imp hbelow
      fun _ _ _ hfound => hfound
    · unfold Check.exprType
      simp only [hf]
    · exact hs.stocked.has_primitive "void" rfl
  | null => exact (quiet_null hf).imp hbelow fun _ _ _ hfound => hfound
  | ident name => exact quiet_ident hscene h hf
  | object props => exact (quiet_object hscene h hf).imp hbelow fun _ _ _ hfound => hfound
  | call callee args => exact (quiet_call hscene h hf).imp hbelow fun _ _ _ hfound => hfound
  | member base name =>
    have hone : (Form.member base name).children.flatMap (listing env.tree) = listing env.tree base := by
      simp [Form.children]
    rw [hone] at hbelow ⊢
    exact (quiet_member hscene h hf).imp hbelow fun _ _ _ hfound => hfound
  | unary op x =>
    have hone : (Form.unary op x).children.flatMap (listing env.tree) = listing env.tree x := by
      simp [Form.children]
    rw [hone] at hbelow ⊢
    cases op with
    | negate => exact (quiet_negate hscene h hf).imp hbelow fun _ _ _ hfound => hfound
    | not => exact (quiet_not hscene h hf).imp hbelow fun _ _ _ hfound => hfound
  | binary op x y =>
    have htwo : (Form.binary op x y).children.flatMap (listing env.tree) = listing env.tree x ++
      listing env.tree y := by
      simp [Form.children]
    rw [htwo] at hbelow ⊢
    by_cases hop : op.isLogical = true
    · exact (quiet_logical hscene h hf hop).imp hbelow fun _ _ _ hfound => hfound
    · have hop : op.isLogical = false := by simpa using hop
      have hcode : Check.exprType env (depth + 1) id want = Check.binary env depth id op x y want := by
        unfold Check.exprType
        simp only [hf, hop, Bool.false_eq_true, if_false]
      rw [hcode]
      exact (h.binary s id op x y want hf hop).imp hbelow fun _ _ _ hfound => hfound
  | assign target value =>
    have htwo : (Form.assign target value).children.flatMap (listing env.tree) =
        listing env.tree target ++ listing env.tree value := by simp [Form.children]
    rw [htwo] at hbelow ⊢
    exact (quiet_assign hscene h hf).imp hbelow fun _ _ _ hfound => hfound
  | arrowFunc params written inner =>
    rw [← hlist, listing_of_body? hscene hf rfl, List.tail_cons]
    refine (quiet_arrow hscene h hf).imp (fun hs => ?_) fun _ _ _ hfound => hfound
    rwa [listing_of_body? hscene hf rfl]
  | _ => cases hexpr

end

end TypedScript.Check
