import TypedScript.Proofs.Check.Functions

/-!
# Visiting statements

With returns, declarations and the other statements the induction on the depth of the recursion is closed.

* `Completes.stmt_succ`: what visiting a statement leads to.
* `Completes.all`: every part of the checker does what it should, down to any depth.
-/

namespace TypedScript.Check

open TypedScript.Ast TypedScript.Binding TypedScript.Ty Typing

variable {env : Env} {s s' : State} {id d v τ ρ inner : Nat} {f : Form} {ns params : List Nat}

section

variable (hscene : Scene env) {depth : Nat}
include hscene

/-! ### Statements -/

omit hscene in
theorem Completes.returnStmt_succ (h : Completes env depth) (hlinked : env.tree.Linked) (s : State) (id : Nat)
    (value : Option Nat) (hf : env.tree.form? id = some (.ret value)) :
    Quiet (Ready env s (value.toList.flatMap (listing env.tree)) (depth + 1) ∧ Framed s) s
      (Check.returnStmt env (depth + 1) id value) fun s' _ => Executes env s s'
        (value.toList.flatMap (listing env.tree)) ∧
        ∃ top outer, s'.frames = top :: outer ∧ ReturnsTo s'.typing top value := by
  unfold Check.returnStmt
  refine .read ?_
  cases hframes : s.frames with
  | nil => exact .report _ _
  | cons top outer =>
    cases value with
    | none =>
      have hnil (hs : Ready env s ([] : List Nat) (depth + 1) ∧ Framed s) : Executes env s s [] :=
        (Passes.nil hs.1.orderly).executes hs.2
      -- without a value, what the function returns is void
      have hthen : Quiet ((Ready env s ([] : List Nat) (depth + 1) ∧ Framed s) ∧
        (top.result ≠ 0 → top.result = voidId)) s
          (do if top.result = 0 ∧ top.inferred = 0 then modifyFrame ({ · with inferred := voidId })) fun s' _ =>
            Executes env s s' [] ∧ ∃ top outer, s'.frames = top :: outer ∧ ReturnsTo s'.typing top none := by
        refine .ite (fun hzero => ?_) fun hne => .pure ?_
        · refine (quiet_modifyFrame _ top outer).imp (fun _ => hframes) ?_
          rintro s' - ⟨⟨hready, hframed⟩, hvoid⟩ rfl
          have hhas : s.types.Has voidId := hready.orderly.stocked.has_primitive "void" rfl
          refine ⟨(Passes.nil hready.orderly).infers hframed hframes hzero.2 hhas, _, outer, rfl, ?_, hvoid⟩
          simp [Frame.wanted, hzero.1, hhas.ne_zero]
        · rintro ⟨hs, hvoid⟩
          refine ⟨hnil hs, top, outer, hframes, ?_, hvoid⟩
          by_cases hzero : top.result = 0 <;> simp_all [Frame.wanted]
      refine .ite (fun _ => .typeText (.reported fun s' => ?_)) fun hvoid =>
        hthen.imp (fun hs => ⟨hs, fun hne => ?_⟩) fun _ _ _ h => h
      · exact .ite (fun _ => (quiet_modifyFrame _ top outer).void) fun _ => .pure False.elim
      · exact Decidable.not_not.1 fun hne' => hvoid ⟨hne, hne'⟩
    | some x =>
      have hx : IsExpr env.tree x := hlinked.expression_part hf (by simp [Form.parts])
      have hone : (some x).toList.flatMap (listing env.tree) = listing env.tree x := by simp
      rw [hone]
      -- a value is of the type that is known
      have hknown (want : Nat) (hne : want ≠ 0) (hwant : top.wanted = want) (htop : Framed s → Wanted s want) :
          Quiet (Ready env s (listing env.tree x) (depth + 1) ∧ Framed s) s (do
            let got ← Check.expr env depth x want
            expect (env.tree.span x) want got) fun s' _ => Executes env s s' (listing env.tree x) ∧
              ∃ top outer, s'.frames = top :: outer ∧ ReturnsTo s'.typing top (some x) := by
        refine (h.expr s x want hx).bind (fun hs => ⟨hs.1, htop hs.2⟩) fun s₁ got =>
          (Quiet.expect _ want got).imp (fun hs => hs) ?_
        rintro s₂ - ⟨⟨-, hframed⟩, hpasses, hgot⟩ ⟨rfl, hassign⟩
        refine ⟨hpasses.executes hframed, top, outer, hpasses.frames.trans hframes, hwant ▸ hne, got, hgot, ?_⟩
        exact hwant ▸ hassign hne (hpasses.has hgot).ne_zero
      have htop (hframed : Framed s) := hframed top (by simp [hframes])
      refine .ite (fun hne => ?_) fun hzero => ?_
      · exact hknown top.result hne (by simp [Frame.wanted, hne]) fun hframed => (htop hframed).1
      have hzero : top.result = 0 := Decidable.not_not.1 hzero
      by_cases hinferred : top.inferred = 0
      · refine (h.expr s x _ hx).bind (fun hs => ⟨hs.1, (htop hs.2).2⟩) fun s₁ got => ?_
        rw [if_pos hinferred]
        refine (quiet_modifyFrame _ top outer).imp (fun hs => hs.2.1.frames.trans hframes) ?_
        rintro s₂ - ⟨⟨-, hframed⟩, hpasses, hgot⟩ rfl
        have hne := (hpasses.has hgot).ne_zero
        refine ⟨hpasses.infers hframed hframes hinferred (hpasses.has hgot), _, outer, rfl, ?_, ?_⟩
        · simp [Frame.wanted, hzero, hne]
        · have hwanted : ({ top with inferred := got } : Frame).wanted = got := by simp [Frame.wanted, hzero]
          rw [hwanted]
          exact .of_hasType hgot
      · simp only [hinferred, if_false]
        exact hknown top.inferred hinferred (by simp [Frame.wanted, hzero]) fun hframed => (htop hframed).2

omit hscene in
/-- Nodes that obey their rules anyway need not be visited. -/
theorem Passes.idle (h : Orderly env s) (hj : ∀ v ∈ ns, Judged env s.typing v) : Passes env s s ns :=
  ⟨⟨(Spreads.refl env s).mono (List.nil_subset _), h, hj⟩, rfl⟩

omit hscene in
theorem Orderly.signed_of_hasType (h : Orderly env s) (hd : DeclaresFunction env.tree d)
    (hτ : s.typing.HasType d τ) :
    Signed env s.typing d := by
  cases hlookup : s.signatures.lookup d with
  | none => cases (h.unsigned d hd hlookup).1.symm.trans hτ
  | some σ => exact (h.signed d σ hlookup).2.2

omit hscene in
/-- The nodes of a written type obey their rules. -/
theorem judged_written (hlinked : env.tree.Linked) (hf : env.tree.form? id = some f) {Γ : Typing} :
    ∀ v ∈ f.type?.toList.flatMap (listing env.tree), Judged env Γ v := by
  intro v hv
  obtain ⟨w, hw, hv⟩ := List.mem_flatMap.1 hv
  obtain ⟨-, htype⟩ := hlinked.isType_part hf (mem_parts_of_type? (Option.mem_toList.1 hw))
  rw [(listing_type hlinked htype).1] at hv
  exact judged_of_isType (List.mem_singleton.1 hv ▸ htype)

/-- A statement behind a condition, or several. -/
theorem quiet_guarded (h : Completes env depth) {cond : Nat} {stmts : List Nat} (hcond : IsExpr env.tree cond)
    (hstmts : ∀ c ∈ stmts, IsStmt env.tree c) :
    Quiet (Ready env s (listing env.tree cond ++ stmts.flatMap (listing env.tree)) depth ∧ Framed s) s (do
      boolean env depth cond
      stmts.forM (Check.stmt env depth)) fun s' _ =>
        Executes env s s' (listing env.tree cond ++ stmts.flatMap (listing env.tree)) ∧ s'.typing.Fits cond boolId ∧
          ∀ c ∈ stmts, ReturnsIn env s' c := by
  refine (h.boolean s cond hcond).bind (fun hs => hs.1.front hscene) fun s₁ _ =>
    (quiet_stmts hscene h stmts hstmts s₁).imp ?_ ?_
  · rintro ⟨⟨hready, hframed⟩, hpasses, -⟩
    exact ⟨(hready.back hscene hpasses).mono (Nat.le_succ _), (hpasses.executes hframed).framed⟩
  · rintro s₂ - ⟨⟨-, hframed⟩, hpasses, hfits⟩ ⟨hexec, hreturns⟩
    exact ⟨(hpasses.executes hframed).append hscene hexec, hfits.grow hexec.typing trivial, hreturns⟩

theorem quiet_varDecl (h : Completes env depth) {name : String} {isConst : Bool} {written : Option Nat} {init : Nat}
    (hf : env.tree.form? id = some (.varDecl name isConst written init)) :
    Quiet (Ready env s (listing env.tree id) (depth + 3)) s (Check.stmt env (depth + 1) id) fun s' _ =>
      Passes env s s' (listing env.tree id) := by
  have hinit : IsExpr env.tree init := .of_part hscene hf (by simp [Form.parts])
  have hlist : listing env.tree id =
    id :: (written.toList.flatMap (listing env.tree) ++ listing env.tree init) := by
    rw [listing_of_isStatement hscene hf rfl]
    simp [Form.children]
  have hlate : Late env id := by
    refine .of_kind hscene (symbolKind_of_form hf) ?_
    cases isConst <;> simp [SymbolKind.ofForm]
  have hwritten {Γ : Typing} : ∀ v ∈ written.toList.flatMap (listing env.tree), Judged env Γ v :=
    judged_written hscene.linked hf
  unfold Check.stmt
  simp only [hf]
  -- the written type is resolved
  have hresolve : Quiet (Ready env s (listing env.tree id) (depth + 3)) s (resolveType? env written) fun s₁ want =>
      Interns s s₁ ∧ Wanted s₁ want ∧ (want = 0 ↔ written = none) ∧ ∀ w ∈ written,
        Denotes env s₁.typing w want := by
    cases written with
    | none => exact .pure fun hready => ⟨.refl hready.orderly.stocked, .none s, by simp, by simp⟩
    | some w =>
      refine (resolvesBy_part hscene hf rfl s).imp (fun hready => ⟨hready.orderly.supplies, ?_⟩)
        fun s₁ want _ hσ => ?_
      · exact reached_of_outside (hready.prepared.mem_reached (self_mem_listing hscene.linked hf))
      · refine ⟨hσ.interns, .inr hσ.has, by simp [hσ.has.ne_zero], fun w' hw' => ?_⟩
        obtain rfl := Option.some.inj hw'
        exact hσ.denotes
  refine hresolve.bind (fun hs => hs) fun s₁ want => ?_
  have hready {s₁ : State} (hs : Ready env s (listing env.tree id) (depth + 3)) (hi : Interns s s₁) :
      Ready env s₁ (listing env.tree init) depth := by
    have hself := hs.parts hscene.linked hf rfl fun u hu hd => ?_
    · rw [show (Form.varDecl name isConst written init).children.flatMap (listing env.tree) =
        written.toList.flatMap (listing env.tree) ++ listing env.tree init by simp [Form.children]] at hself
      exact (hself.back hscene (.idle hs.orderly hwritten)).interns hi
    · refine absurd hd (hscene.apart id ⟨name, isConst, written, init, hf⟩ u ?_)
      rw [listing_of_isStatement hscene hf rfl]
      exact List.mem_cons_of_mem _ hu
  refine (h.expr s₁ init want hinit).bind (fun hs => ⟨(hready hs.1 hs.2.1).mono (Nat.le_succ _), hs.2.2.1⟩)
    fun s₂ got => ?_
  have hrecord {s₃ : State} {τ : Nat} (hs : (Ready env s (listing env.tree id) (depth + 3) ∧
      Interns s s₁ ∧ Wanted s₁ want ∧ (want = 0 ↔ written = none) ∧ ∀ w ∈ written, Denotes env s₁.typing w want) ∧
        Passes env s₁ s₂ (listing env.tree init) ∧ s₂.typing.HasType init got) (hhas : s₂.types.Has τ)
      (hs₃ : s₃ = s₂.recorded id τ) (hfits : s₂.typing.Fits init τ)
      (hdenotes : ∀ w ∈ written, Denotes env s₂.typing w τ)
      (hinferred : written = none → s₂.typing.HasType init τ ∧ ∃ t, s₂.types.resolved? τ = some t ∧ t ≠ .null) :
      Passes env s s₃ (listing env.tree id) := by
    obtain ⟨⟨hready, hi, -⟩, hpasses, -⟩ := hs
    have hall := ((Passes.idle hready.orderly hwritten).interns hscene.linked hi).append hscene hpasses
    have hfound : Found env s s₂ id τ (written.toList.flatMap (listing env.tree) ++ listing env.tree init) :=
      hall.found hhas fun Γ hΓ hτ =>
        .intro hf ⟨τ, hτ, hfits.grow hΓ trivial, fun w hw => (hdenotes w hw).grow hΓ fun _ _ => trivial,
        fun hnone => by
          obtain ⟨hτ, t, ht, hne⟩ := hinferred hnone
          exact ⟨hΓ.info init τ trivial hτ, t, hΓ.types.resolved? ht, hne⟩⟩
    have hprepared := hready.prepared
    rw [hlist] at hprepared ⊢
    exact hs₃ ▸ (hfound.recorded hscene hprepared hlate).1
  refine .ite (fun hne => ?_) fun hzero => .resolved? (.ite (fun _ => .report _ _) fun hnull => ?_)
  · refine (Quiet.expect _ want got).bind (fun hs => hs) fun s₃ _ =>
      Quiet.discard ((quiet_record id want).imp (fun hs => hs) ?_)
    rintro s₄ - ⟨hs, rfl, hassign⟩ ⟨-, hs₄⟩
    have hgot := hs.2.2
    refine hrecord hs (.extends (hs.1.2.2.1.resolve_left hne) hs.2.1.typing.types) (hs₄ hne) ⟨got, hgot, ?_⟩
      (fun w hw => ?_) fun hnone => ?_
    · exact hassign hne (hs.2.1.has hgot).ne_zero
    · exact (hs.1.2.2.2.2 w hw).grow hs.2.1.typing fun _ _ => trivial
    · exact absurd (hs.1.2.2.2.1.2 hnone) hne
  · refine Quiet.discard ((quiet_record id got).imp (fun hs => hs) ?_)
    rintro s₃ - hs ⟨-, hs₃⟩
    have hgot := hs.2.2
    have hhas := hs.2.1.has hgot
    obtain ⟨t, ht⟩ := hs.2.1.visits.orderly.sound got hhas
    have hnone := hs.1.2.2.2.1.1 (Decidable.not_not.1 hzero)
    refine hrecord hs hhas (hs₃ hhas.ne_zero) (.of_hasType hgot) (fun w hw => ?_) fun _ => ⟨hgot, t, ht, ?_⟩
    · simp [hnone] at hw
    · rintro rfl
      exact hnull ht

/-- A function with a written result gets its type when it is first needed. -/
theorem quiet_early (h : Completes env depth) (hd : DeclaresFunction env.tree d)
    (hwritten : ¬ IsInferred env.tree d) (hf : env.tree.form? d = some f) {steps : Nat} :
    Quiet (Ready env s (listing env.tree d) steps ∧ 0 < depth) s (Check.signature env depth d) fun s' _ =>
      Passes env s s' [] ∧ Signed env s'.typing d := by
  refine (h.signature s d hd).imp (fun ⟨hready, hpos⟩ => ⟨hready.orderly, .inr ⟨hd, .inl hwritten⟩, hpos, ?_⟩) ?_
  · exact reached_of_outside (hready.prepared.mem_reached (self_mem_listing hscene.linked hf))
  · exact fun s' τ _ ⟨hpasses, hτ⟩ => ⟨hpasses, hpasses.visits.orderly.signed_of_hasType hd hτ⟩

theorem quiet_declareFunc (h : Completes env depth) {name : String} {result : Nat}
    (hf : env.tree.form? id = some (.declareFunc name params result)) :
    Quiet (Ready env s (listing env.tree id) (depth + 3)) s (Check.stmt env (depth + 1) id) fun s' _ =>
      Passes env s s' (listing env.tree id) := by
  have hd : DeclaresFunction env.tree id := .inr (symbolKind_of_form hf)
  have hwritten : ¬ IsInferred env.tree id := by simp [IsInferred, hf, Form.type?]
  unfold Check.stmt
  simp only [hf]
  refine Quiet.discard ((quiet_early hscene h hd hwritten hf).imp (fun hready => ⟨hready, ?_⟩) ?_)
  · have hlt := hready.lt
    have hpos := List.length_pos_of_mem (self_mem_listing hscene.linked hf)
    omega
  rintro s' - hready ⟨hpasses, hsigned⟩
  rw [listing_foreign hscene hf]
  have hparams := hsigned.2
  obtain ⟨ρ, hcallable⟩ := hsigned.1
  rw [paramsOf_eq hf] at hparams hcallable
  simp only [hf, Option.getD_some] at hcallable
  refine ⟨⟨hpasses.visits.toSpreads.mono (List.nil_subset _), hpasses.visits.orderly, fun v hv => ?_⟩,
    hpasses.frames⟩
  rcases List.mem_cons.1 hv with rfl | hv
  · exact .intro hf ⟨ρ, hcallable⟩
  · exact judged_heading hscene hf hparams v hv

theorem quiet_funcDecl (h : Completes env depth) {name : String} {written : Option Nat}
    (hf : env.tree.form? id = some (.funcDecl name params written inner)) :
    Quiet (Ready env s (listing env.tree id) (depth + 2)) s (Check.stmt env (depth + 1) id) fun s' _ =>
      Passes env s s' (listing env.tree id) := by
  have hd : DeclaresFunction env.tree id := .inl (symbolKind_of_form hf)
  have hself := self_mem_listing hscene.linked hf
  unfold Check.stmt
  simp only [hf]
  by_cases hinferred : IsInferred env.tree id
  · -- the body was entered for the sake of the type
    refine (h.declare s id hd hinferred).bind (fun hs => hs) fun s₁ _ => Quiet.discard ?_
    refine (h.body s₁ id 0 _ inner hf rfl).imp (fun ⟨_, _, hdone⟩ hnot => absurd hdone hnot) ?_
    rintro s₂ ρ ⟨-, hpasses, hdone⟩ ⟨hsame, -⟩
    exact hsame hdone ▸ hpasses
  · have hlist := listing_of_body? hscene hf rfl
    have hpos (hready : Ready env s (listing env.tree id) (depth + 2)) : 0 < depth := by
      have hlt := hready.lt
      have hpos := List.length_pos_of_mem hself
      omega
    refine (quiet_early hscene h hd hinferred hf).bind (fun hready => ⟨hready, hpos hready⟩) fun s₁ _ =>
      Quiet.discard ?_
    -- the head obeys the rules when the type is known
    have hhead (hpasses : Passes env s s₁ []) (hsigned : Signed env s₁.typing id) :
        Passes env s s₁ (heading env.tree (.funcDecl name params written inner)) := by
      have hparams := hsigned.2
      rw [paramsOf_eq hf] at hparams
      exact ⟨⟨hpasses.visits.toSpreads.mono (List.nil_subset _), hpasses.visits.orderly,
        judged_heading hscene hf hparams⟩,
        hpasses.frames⟩
    have hnew (hready : Ready env s (listing env.tree id) (depth + 2)) (hpasses : Passes env s s₁ []) :
      id ∉ s₁.done := fun hmem =>
      (hpasses.visits.done id hmem).elim (hready.prepared.fresh id hself).1 List.not_mem_nil
    refine (h.body s₁ id 0 _ inner hf rfl).imp (fun ⟨hready, hpasses, hsigned⟩ _ => ?_) ?_
    · have hinside := hready.mono (by omega : depth + 2 ≤ depth + 3)
      rw [hlist] at hinside
      refine ⟨hinside.inside hscene (hhead hpasses hsigned).visits fun u _ _ => ?_, .none _, ?_⟩
      · exact .inr ⟨hd, .inl hinferred⟩
      · exact reached_of_outside (hready.prepared.mem_reached hself)
    · rintro s₂ ρ ⟨hready, hpasses, hsigned⟩ ⟨-, hran⟩
      have hran := hran (hnew hready hpasses)
      have hall := hran.toEnters.after hscene (hhead hpasses hsigned)
      rw [hlist]
      refine ⟨⟨⟨hall.typing, hall.spreads.busy, fun v τ hτ => ?_, hall.spreads.done, hall.spreads.kept⟩,
        hall.orderly, ?_⟩, hall.frames⟩
      · exact (hall.fresh v τ hτ).imp_right (Or.imp_left (List.mem_cons_of_mem _))
      · refine List.forall_mem_cons.2 ⟨.intro hf ?_, hall.judged⟩
        obtain ⟨σ, hcallable⟩ := (hsigned.grow hran.typing (fun _ _ => trivial) trivial fun _ _ => trivial).1
        rw [paramsOf_eq hf] at hcallable
        simp only [hf, Option.getD_some] at hcallable
        -- the written result stands for one type only
        obtain ⟨w, hw⟩ : ∃ w, written = some w := Option.ne_none_iff_exists'.1 fun hnone =>
          hinferred (by simp [IsInferred, hf, Form.type?, hnone])
        obtain ⟨τ, σs, hτ, hmeans, heach, hdenotes⟩ := hcallable
        obtain rfl := (hran.denotes w hw).unique (hdenotes w hw)
        exact ⟨ρ, ⟨τ, σs, hτ, hmeans, heach, hdenotes⟩, hran.returns⟩

theorem Completes.stmt_succ (h : Completes env depth) (s : State) (id : Nat) (hid : IsStmt env.tree id) :
    Quiet (Ready env s (listing env.tree id) (depth + 2) ∧ Framed s) s (Check.stmt env (depth + 1) id) fun s' _ =>
      Executes env s s' (listing env.tree id) ∧ ReturnsIn env s' id := by
  obtain ⟨f, hf, hstmt⟩ := hid
  have hlist := listing_of_isStatement hscene hf hstmt
  have hbelow (hnot : env.tree.isDeclaration id = false)
      (hs : Ready env s (listing env.tree id) (depth + 2) ∧ Framed s) :
      Ready env s (f.children.flatMap (listing env.tree)) depth ∧ Framed s := by
    have hready := (hs.1.mono (by omega : depth + 2 ≤ depth - 1 + 3)).statement hscene hf hstmt hnot
    exact ⟨hready.mono (by omega), hs.2⟩
  cases f with
  | typeAlias name type =>
    unfold Check.stmt
    simp only [hf]
    refine .pure fun hs => ⟨(Passes.idle hs.1.orderly fun v hv => ?_).executes hs.2, .of_form hf rfl (by simp)⟩
    rw [hlist] at hv
    rcases List.mem_cons.1 hv with rfl | hv
    · exact .intro hf trivial
    · exact judged_written hscene.linked hf v (by simpa [Form.children, Form.type?] using hv)
  | declareFunc name params result =>
    refine (quiet_declareFunc hscene h hf).imp (fun hs => hs.1.mono (by omega)) fun s' _ hs hpasses => ?_
    exact ⟨hpasses.executes hs.2, .of_form hf rfl (by simp)⟩
  | funcDecl name params written inner =>
    refine (quiet_funcDecl hscene h hf).imp And.left fun s' _ hs hpasses => ?_
    exact ⟨hpasses.executes hs.2, .of_form hf rfl (by simp)⟩
  | varDecl name isConst written init =>
    refine (quiet_varDecl hscene h hf).imp (fun hs => hs.1.mono (by omega)) fun s' _ hs hpasses => ?_
    exact ⟨hpasses.executes hs.2, .of_form hf rfl (by simp)⟩
  | ret value =>
    have hnot : env.tree.isDeclaration id = false := by simp [Tree.isDeclaration, hf]
    unfold Check.stmt
    simp only [hf]
    refine (h.returnStmt s id value hf).imp (hbelow hnot) ?_
    rintro s' - hs ⟨hexec, top, outer, hframes, hto⟩
    rw [hlist]
    refine ⟨hexec.self (.intro hf ?_), fun r value' hr hform => ?_⟩
    · cases value with
      | none => trivial
      | some x =>
        obtain ⟨-, τ, hτ, -⟩ := hto
        exact ⟨τ, hτ⟩
    · cases hr with
      | here =>
        obtain rfl := Form.ret.inj (Option.some.inj (hf.symm.trans hform))
        exact ⟨top, outer, hframes, hto⟩
      | part hg hc =>
        obtain rfl := Option.some.inj (hf.symm.trans hg)
        exact absurd hc List.not_mem_nil
  | ifElse cond thenBranch elseBranch =>
    have hnot : env.tree.isDeclaration id = false := by simp [Tree.isDeclaration, hf]
    have hstmts : ∀ c ∈ thenBranch :: elseBranch.toList, IsStmt env.tree c := fun c hc =>
      hscene.linked.statement_part hf (by simpa [Form.parts] using hc)
    unfold Check.stmt
    simp only [hf]
    refine (quiet_guarded hscene h (.of_part hscene hf (by simp [Form.parts])) hstmts).imp (hbelow hnot) ?_
    rintro s' - - ⟨hexec, hfits, hreturns⟩
    rw [hlist]
    exact ⟨hexec.self (.intro hf hfits), .of_parts hf (by simp) hreturns⟩
  | whileLoop cond inner =>
    have hnot : env.tree.isDeclaration id = false := by simp [Tree.isDeclaration, hf]
    have hstmts : ∀ c ∈ [inner], IsStmt env.tree c := fun c hc =>
      hscene.linked.statement_part hf (by simpa [Form.parts] using hc)
    have hcond : IsExpr env.tree cond := .of_part hscene hf (by simp [Form.parts])
    have hguarded := quiet_guarded (s := s) hscene h hcond hstmts
    have hone : [inner].forM (Check.stmt env depth) = Check.stmt env depth inner := by
      simp [List.forM_cons, List.forM_nil]
    rw [hone] at hguarded
    unfold Check.stmt
    simp only [hf]
    refine hguarded.imp (hbelow hnot) ?_
    rintro s' - - ⟨hexec, hfits, hreturns⟩
    rw [hlist]
    exact ⟨hexec.self (.intro hf hfits), .of_parts hf (by simp) hreturns⟩
  | block stmts =>
    have hnot : env.tree.isDeclaration id = false := by simp [Tree.isDeclaration, hf]
    have hstmts : ∀ c ∈ stmts, IsStmt env.tree c :=
      fun c hc => hscene.linked.statement_part hf (by simp [Form.parts, hc])
    unfold Check.stmt
    simp only [hf]
    refine (quiet_stmts hscene h stmts hstmts s).imp (fun hs => ⟨(hbelow hnot hs).1.mono (Nat.le_succ _), hs.2⟩) ?_
    rintro s' - - ⟨hexec, hreturns⟩
    rw [hlist]
    exact ⟨hexec.self (.intro hf trivial), .of_parts hf (by simp) hreturns⟩
  | exprStmt x =>
    have hnot : env.tree.isDeclaration id = false := by simp [Tree.isDeclaration, hf]
    have hone : (Form.exprStmt x).children.flatMap (listing env.tree) = listing env.tree x := by
      simp [Form.children]
    unfold Check.stmt
    simp only [hf]
    rw [hone] at hbelow hlist
    refine Quiet.discard ((h.expr s x 0 (.of_part hscene hf (by simp [Form.parts]))).imp
      (fun hs => ⟨(hbelow hnot hs).1.mono (Nat.le_succ _), .none s⟩) ?_)
    rintro s' τ hs ⟨hpasses, hτ⟩
    rw [hlist]
    exact ⟨(hpasses.executes hs.2).self (.intro hf ⟨τ, hτ⟩), .of_form hf rfl (by simp)⟩
  | _ => cases hstmt

/-! ### Any depth -/

/-- No node can be visited in no steps. -/
theorem Completes.zero : Completes env 0 := by
  have hnever {s : State} {ns : List Nat} (hready : Ready env s ns 0) : False := Nat.not_lt_zero _ hready.lt
  have hsome {s : State} {id : Nat} {f : Form} {steps : Nat} (hf : env.tree.form? id = some f)
      (hready : Ready env s (listing env.tree id) steps) (hle : steps ≤ 3) : False := by
    have hlt := hready.lt
    have hpos := List.length_pos_of_mem (self_mem_listing hscene.linked hf)
    omega
  constructor
  case expr =>
    rintro s id want ⟨f, hf, -⟩
    unfold Check.expr
    exact .pure fun hs => (hsome hf hs.1 (by decide)).elim
  case exprType =>
    rintro s id want ⟨f, hf, -⟩
    unfold Check.exprType
    exact .pure fun hs => (hsome hf hs.1 (by decide)).elim
  case boolean =>
    intro s id _
    unfold Check.boolean
    exact .pure fun hready => (hnever hready).elim
  case arguments =>
    intro s args params _
    unfold Check.arguments
    exact .pure fun hs => (hnever hs.1).elim
  case expectedProps =>
    intro s want props fields _
    unfold Check.expectedProps
    exact .pure fun hs => (hnever hs.1).elim
  case inferredProps =>
    intro s props _
    unfold Check.inferredProps
    exact .pure fun hready => (hnever hready).elim
  case signature =>
    intro s d _
    unfold Check.signature
    exact .pure fun hs => (Nat.lt_irrefl 0 hs.2.2.1).elim
  case binary =>
    intro s id op x y want _ _
    unfold Check.binary
    exact .pure fun hs => (hnever hs.1).elim
  case body =>
    intro s id expected f inner _ _
    unfold Check.body
    exact .pure fun hs => ⟨fun _ => rfl, fun hnot => (hnever (hs hnot).1).elim⟩
  case declare =>
    intro s d hd _
    obtain ⟨f, hf, -⟩ := hd.form
    unfold Check.signature
    exact .pure fun hready => (hsome hf hready (by decide)).elim
  case stmt =>
    rintro s id ⟨f, hf, -⟩
    unfold Check.stmt
    exact .pure fun hs => (hsome hf hs.1 (by decide)).elim
  case returnStmt =>
    intro s id value _
    unfold Check.returnStmt
    exact .pure fun hs => (hnever hs.1).elim

/-- Down to any depth, every part of the checker does what it should if nothing is reported. -/
theorem Completes.all (depth : Nat) : Completes env depth := by
  induction depth with
  | zero => exact .zero hscene
  | succ depth ih =>
    exact {
      expr := ih.expr_succ hscene
      exprType := ih.exprType_succ hscene
      boolean := ih.boolean_succ
      arguments := ih.arguments_succ hscene
      expectedProps := ih.expectedProps_succ hscene
      inferredProps := ih.inferredProps_succ hscene
      signature := ih.signature_succ hscene
      binary := ih.binary_succ hscene
      body := ih.body_succ hscene
      declare := ih.declare_succ hscene
      stmt := ih.stmt_succ hscene
      returnStmt := ih.returnStmt_succ hscene.linked }

end

end TypedScript.Check
