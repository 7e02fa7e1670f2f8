import TypedScript.Proofs.Check.Visits

/-!
# Visiting expressions

If nothing is reported, visiting nodes that can be visited gives all of them the types that the rules ask for.
This is an induction on the depth of the recursion: the rules that hold below a node give the rule of the node,
and the node is recorded with it.

* `Completes`: what every part of the checker does, down to a depth.
* `Completes.expr_succ` and so on: what the parts that check expressions do one step deeper.
-/

namespace TypedScript.Check

open TypedScript.Ast TypedScript.Binding TypedScript.Ty Typing

variable {env : Env} {s s' s'' : State} {P : Prop} {id d v τ : Nat} {f : Form} {ns ns' : List Nat}

/-! ### What the parts of the checker do -/

/-- The node is an expression. -/
def IsExpr (t : Tree) (id : Nat) : Prop := ∃ f, t.form? id = some f ∧ f.isExpression = true

/-- The nodes can be visited in fewer than so many steps of the recursion. -/
structure Ready (env : Env) (s : State) (ns : List Nat) (steps : Nat) : Prop where
  prepared : Prepared env s ns
  lt : 3 * ns.length < steps

namespace Ready

variable {steps steps' : Nat}

theorem orderly (h : Ready env s ns steps) : Orderly env s := h.prepared.orderly

theorem mono (h : Ready env s ns steps) (hle : steps ≤ steps') : Ready env s ns steps' :=
  ⟨h.prepared, Nat.lt_of_lt_of_le h.lt hle⟩

theorem front (h : Ready env s (ns ++ ns') steps) (hscene : Scene env) : Ready env s ns steps := by
  have hlt := h.lt
  rw [List.length_append] at hlt
  exact ⟨h.prepared.front hscene, by omega⟩

theorem back (h : Ready env s (ns ++ ns') steps) (hscene : Scene env) (hs : Passes env s s' ns) :
    Ready env s' ns' steps := by
  have hlt := h.lt
  rw [List.length_append] at hlt
  exact ⟨h.prepared.back hscene hs.visits, by omega⟩

theorem interns (h : Ready env s ns steps) (hi : Interns s s') : Ready env s' ns steps :=
  ⟨h.prepared.interns hi, h.lt⟩

end Ready

/-- The function around a place returns types that there are. -/
def Framed (s : State) : Prop := ∀ top ∈ s.frames.head?, Wanted s top.result ∧ Wanted s top.inferred

/-- What the function returns: what is asked of it, or what its first return gave. -/
def Frame.wanted (f : Frame) : Nat := if f.result ≠ 0 then f.result else f.inferred

/-- The functions around a place stay; what the innermost one returns may be found out. -/
inductive FramesGo : List Frame → List Frame → Prop
  | none : FramesGo [] []
  | top {a b : Frame} {outer : List Frame} : b.result = a.result → (a.inferred ≠ 0 → b.inferred = a.inferred) →
      FramesGo (a :: outer) (b :: outer)

/-- A return of the function gives back what the function returns. -/
def ReturnsTo (Γ : Typing) (top : Frame) : Option Nat → Prop
  | some x => top.wanted ≠ 0 ∧ Γ.Fits x top.wanted
  | none => top.wanted ≠ 0 ∧ (top.result ≠ 0 → top.result = voidId)

/-- The returns in a statement give back what the function around it returns. -/
def ReturnsIn (env : Env) (s : State) (id : Nat) : Prop := ∀ r value, env.tree.Within id r →
  env.tree.form? r = some (.ret value) → ∃ top outer, s.frames = top :: outer ∧ ReturnsTo s.typing top value

/-- The node is a statement. -/
def IsStmt (t : Tree) (id : Nat) : Prop := ∃ f, t.form? id = some f ∧ f.isStatement = true

/-- The state in which the body of the function is checked, apart from the result that is wanted. -/
def State.entered (s : State) (id : Nat) : State := { s with done := id :: s.done, busy := id :: s.busy }

/-- The body of a function was checked, and gives back what the function returns. -/
structure Ran (env : Env) (s s' : State) (id : Nat) (written : Option Nat) (inner ρ : Nat) : Prop
    extends Enters env s s' id (listing env.tree inner) where
  result : s'.types.Has ρ
  denotes : ∀ w ∈ written, Denotes env s'.typing w ρ
  returns : s'.typing.Returns env.tree written inner ρ
  entered : id ∈ s'.done

/-- Statements were visited. -/
structure Executes (env : Env) (s s' : State) (ns : List Nat) : Prop where
  visits : Visits env s s' ns
  frames : FramesGo s.frames s'.frames
  framed : Framed s'

/-- The fields are the properties, by their names, with the types that these have. -/
structure Fielded (env : Env) (Γ : Typing) (props : List Nat) (fields : List (String × Nat)) : Prop where
  each : ∀ p ∈ props, ∃ σ, Γ.HasType p σ ∧ (env.tree.name p, σ) ∈ fields
  only : ∀ field ∈ fields, ∃ p ∈ props, env.tree.name p = field.1 ∧ Γ.HasType p field.2

/-- What checking does down to a depth, if it reports nothing. -/
structure Completes (env : Env) (depth : Nat) : Prop where
  expr (s : State) (id want : Nat) : IsExpr env.tree id →
    Quiet (Ready env s (listing env.tree id) (depth + 1) ∧ Wanted s want) s
      (Check.expr env depth id want) fun s' τ =>
      Passes env s s' (listing env.tree id) ∧ s'.typing.HasType id τ
  exprType (s : State) (id want : Nat) : IsExpr env.tree id →
    Quiet (Ready env s (listing env.tree id) (depth + 2) ∧ Wanted s want) s (Check.exprType env depth id want)
      fun s' τ =>
      Found env s s' id τ (listing env.tree id).tail
  boolean (s : State) (id : Nat) : IsExpr env.tree id →
    Quiet (Ready env s (listing env.tree id) depth) s (Check.boolean env depth id) fun s' _ =>
      Passes env s s' (listing env.tree id) ∧ s'.typing.Fits id boolId
  arguments (s : State) (args params : List Nat) : (∀ a ∈ args, IsExpr env.tree a) →
    Quiet (Ready env s (args.flatMap (listing env.tree)) depth ∧ args.length = params.length ∧ ∀ p ∈ params,
      s.types.Has p) s
      (Check.arguments env depth args params) fun s' _ =>
        Passes env s s' (args.flatMap (listing env.tree)) ∧ List.Forall₂ s'.typing.Fits args params
  expectedProps (s : State) (want : Nat) (props : List Nat) (fields : List (String × Nat)) :
    (∀ p ∈ props, ∃ name value, env.tree.form? p = some (.property name value)) →
    Quiet (Ready env s (props.flatMap (listing env.tree)) depth ∧ s.types.resolved? want = some (.object fields)) s
      (Check.expectedProps env depth want props) fun s' r =>
        r = true ∧ Passes env s s' (props.flatMap (listing env.tree)) ∧
          ∀ p ∈ props, ∃ σ, s'.typing.HasType p σ ∧ (env.tree.name p, σ) ∈ fields
  inferredProps (s : State) (props : List Nat) :
    (∀ p ∈ props, ∃ name value, env.tree.form? p = some (.property name value)) →
    Quiet (Ready env s (props.flatMap (listing env.tree)) depth) s (Check.inferredProps env depth props) fun s' r =>
      ∃ fields, r = some fields ∧ Passes env s s' (props.flatMap (listing env.tree)) ∧
        Fielded env s'.typing props fields
  signature (s : State) (d : Nat) : DeclaresFunction env.tree d →
    Quiet (Orderly env s ∧ Known env s d ∧ 0 < depth ∧ d ∈ env.tree.reached) s
      (Check.signature env depth d) fun s' τ =>
      Passes env s s' [] ∧ s'.typing.HasType d τ
  binary (s : State) (id : Nat) (op : BinaryOp) (x y want : Nat) : env.tree.form? id = some (.binary op x y) →
    op.isLogical = false →
    Quiet (Ready env s (listing env.tree x ++ listing env.tree y) depth ∧ Wanted s want) s
      (Check.binary env depth id op x y want) fun s' τ =>
        Found env s s' id τ (listing env.tree x ++ listing env.tree y)

  body (s : State) (id expected : Nat) (f : Form) (inner : Nat) : env.tree.form? id = some f →
    f.body? = some inner →
    Quiet (id ∉ s.done → Ready env (s.entered id) (listing env.tree inner) depth ∧ Wanted s expected ∧ id ∈
      env.tree.reached) s
      (Check.body env depth id expected) fun s' ρ =>
        (id ∈ s.done → s' = s) ∧ (id ∉ s.done → Ran env s s' id f.type? inner ρ)
  declare (s : State) (d : Nat) : DeclaresFunction env.tree d → IsInferred env.tree d →
    Quiet (Ready env s (listing env.tree d) (depth + 2)) s (Check.signature env depth d) fun s' _ =>
      Passes env s s' (listing env.tree d) ∧ d ∈ s'.done
  stmt (s : State) (id : Nat) : IsStmt env.tree id →
    Quiet (Ready env s (listing env.tree id) (depth + 1) ∧ Framed s) s (Check.stmt env depth id) fun s' _ =>
      Executes env s s' (listing env.tree id) ∧ ReturnsIn env s' id
  returnStmt (s : State) (id : Nat) (value : Option Nat) : env.tree.form? id = some (.ret value) →
    Quiet (Ready env s (value.toList.flatMap (listing env.tree)) depth ∧ Framed s) s
      (Check.returnStmt env depth id value)
      fun s' _ => Executes env s s' (value.toList.flatMap (listing env.tree)) ∧
        ∃ top outer, s'.frames = top :: outer ∧ ReturnsTo s'.typing top value

/-! ### Expressions -/

section

variable (hscene : Scene env) {depth : Nat}
include hscene

theorem listing_of_isExpression (hf : env.tree.form? id = some f) (h : f.isExpression = true) :
    listing env.tree id = id :: f.children.flatMap (listing env.tree) := by
  rw [listing_eq hscene.linked hf, Form.isType_of_isExpression h]
  rfl

theorem IsExpr.of_part (hf : env.tree.form? id = some f) {c : Nat} (hc : (.expression, c) ∈ f.parts) :
    IsExpr env.tree c :=
  hscene.linked.expression_part hf hc

/-- What declares nothing is not referred to. -/
theorem decl?_ne_of_isExpression (hf : env.tree.form? id = some f) (h : f.isExpression = true) {u : Nat}
    (hu : u ∈ env.tree.reachedOutsideTypes) : env.table.decl? u ≠ some id := by
  intro hd
  obtain ⟨-, hdecl, -⟩ := hscene.declared u hu id hd
  unfold Tree.isDeclaration at hdecl
  rw [hf] at hdecl
  cases f <;> simp_all [Form.isExpression]

omit hscene in
/-- When a node can be visited, what stands below it can be. -/
theorem Ready.parts (hlinked : env.tree.Linked) (hf : env.tree.form? id = some f) (htype : f.isType = false)
    {steps : Nat} (hready : Ready env s (listing env.tree id) (steps + 3))
    (hself : ∀ u ∈ f.children.flatMap (listing env.tree), env.table.decl? u = some id → Known env s id) :
    Ready env s (f.children.flatMap (listing env.tree)) steps := by
  obtain ⟨hprepared, hlt⟩ := hready
  rw [listing_eq hlinked hf, htype, if_neg Bool.false_ne_true] at hprepared hlt
  rw [List.length_cons] at hlt
  exact ⟨hprepared.below hself, by omega⟩

theorem Ready.below (hf : env.tree.form? id = some f) (h : f.isExpression = true) {steps : Nat}
    (hready : Ready env s (listing env.tree id) (steps + 3)) : Ready env s
    (f.children.flatMap (listing env.tree)) steps := by
  refine hready.parts hscene.linked hf (Form.isType_of_isExpression h) fun u hu hd =>
    absurd hd (decl?_ne_of_isExpression hscene hf h (hready.prepared.mem_reached ?_))
  rw [listing_of_isExpression hscene hf h]
  exact List.mem_cons_of_mem _ hu

theorem Completes.expr_succ (h : Completes env depth) (s : State) (id want : Nat) (hid : IsExpr env.tree id) :
    Quiet (Ready env s (listing env.tree id) (depth + 2) ∧ Wanted s want) s (Check.expr env (depth + 1) id want)
      fun s' τ => Passes env s s' (listing env.tree id) ∧ s'.typing.HasType id τ := by
  obtain ⟨f, hf, hexpr⟩ := hid
  have hlist := listing_of_isExpression hscene hf hexpr
  unfold Check.expr
  refine (h.exprType s id want ⟨f, hf, hexpr⟩).bind (fun hs => hs) fun s' τ =>
    (quiet_record id τ).imp (fun hs => hs) ?_
  rintro s'' σ ⟨⟨hready, -⟩, hfound⟩ ⟨rfl, hs''⟩
  obtain rfl := hs'' hfound.hasType.ne_zero
  have hprepared := hready.prepared
  rw [hlist] at hprepared hfound ⊢
  exact hfound.recorded hscene hprepared (.of_isExpression hscene hf hexpr)

omit hscene in
theorem Typing.Judged.intro {Γ : Typing} (hf : env.tree.form? id = some f) (h : Obeys env Γ id f) :
    Judged env Γ id := by
  intro g hg
  obtain rfl := Option.some.inj (hf.symm.trans hg)
  exact h

omit hscene in
/-- An expression without parts. -/
theorem Found.leaf (hs : Orderly env s) (hhas : s.types.Has τ) (hf : env.tree.form? id = some f)
    (hobeys : ∀ Γ, Grows s.typing Γ → Γ.HasType id τ → Obeys env Γ id f) : Found env s s id τ [] :=
  (Passes.nil hs).found hhas fun Γ hΓ hτ => .intro hf (hobeys Γ hΓ hτ)

omit hscene in
theorem quiet_number {value : Float} {want : Nat} (hf : env.tree.form? id = some (.number value)) :
    Quiet (Ready env s [] depth ∧ Wanted s want) s (Check.exprType env (depth + 1) id want) fun s' τ =>
      Found env s s' id τ [] := by
  unfold Check.exprType
  simp only [hf]
  refine .resolved? ?_
  split
  · rename_i width hwant
    refine .pure fun hs => .leaf hs.1.orderly (Interner.has_of_resolved? hwant) hf fun Γ hΓ hτ => ?_
    exact .inr ⟨_, width, hτ, hΓ.types.resolved? hwant⟩
  · refine .pure fun hs => .leaf hs.1.orderly ?_ hf fun Γ hΓ hτ => .inl hτ
    exact hs.1.orderly.stocked.has_primitive "number" rfl

omit hscene in
/-- A literal that has the same type everywhere. -/
theorem quiet_literal {want : Nat} (hf : env.tree.form? id = some f)
    (hrun : ∀ depth, Check.exprType env (depth + 1) id want = pure τ) (hhas : ∀ s, Orderly env s → s.types.Has τ)
    (hobeys : ∀ Γ : Typing, Γ.HasType id τ → Obeys env Γ id f) :
    Quiet (Ready env s [] depth ∧ Wanted s want) s (Check.exprType env (depth + 1) id want) fun s' σ =>
      Found env s s' id σ [] := by
  rw [hrun]
  exact .pure fun ⟨hready, _⟩ => .leaf hready.orderly (hhas s hready.orderly) hf fun Γ _ hτ => hobeys Γ hτ

omit hscene in
theorem quiet_null {want : Nat} (hf : env.tree.form? id = some .null) :
    Quiet (Ready env s [] depth ∧ Wanted s want) s (Check.exprType env (depth + 1) id want) fun s' τ =>
      Found env s s' id τ [] := by
  have hnull : Quiet (Ready env s [] depth ∧ Wanted s want) s (pure nullId : CheckM Nat) fun s' τ =>
    Found env s s' id τ [] := by
    refine .pure fun ⟨hready, _⟩ => .leaf hready.orderly ?_ hf fun Γ hΓ hτ => .inl hτ
    exact hready.orderly.stocked.has_primitive "null" rfl
  unfold Check.exprType
  simp only [hf]
  refine .resolved? ?_
  split
  · rename_i expected hwant
    split
    · rename_i hnullable
      refine .pure fun ⟨hready, _⟩ => .leaf hready.orderly (Interner.has_of_resolved? hwant) hf fun Γ hΓ hτ => ?_
      exact .inr ⟨_, expected, hτ, hΓ.types.resolved? hwant, hnullable⟩
    · exact hnull
  · exact hnull

/-- The use of a name has the type of its declaration. -/
theorem quiet_ident (h : Completes env depth) {name : String} {want : Nat}
    (hf : env.tree.form? id = some (.ident name)) :
    Quiet (Ready env s (listing env.tree id) (depth + 3) ∧ Wanted s want) s (Check.exprType env (depth + 1) id want)
      fun s' τ => Found env s s' id τ [] := by
  have hmem : id ∈ listing env.tree id := self_mem_listing hscene.linked hf
  unfold Check.exprType
  simp only [hf]
  cases hd : env.table.decl? id with
  | none => exact .pure fun hs => absurd hd (hscene.bound id (hs.1.prepared.mem_reached hmem) name hf)
  | some d =>
    -- the declaration is known
    have hknown (hready : Ready env s (listing env.tree id) (depth + 3)) : Known env s d := by
      refine (hready.prepared.supplied id hmem d hd).resolve_right fun hd' => ?_
      rw [listing_of_isExpression hscene hf rfl] at hd'
      obtain rfl := List.mem_singleton.1 hd'
      exact decl?_ne_of_isExpression hscene hf rfl (hready.prepared.mem_reached hmem) hd
    have hfunction (hdecl : DeclaresFunction env.tree d) :
        Quiet (Ready env s (listing env.tree id) (depth + 3) ∧ Wanted s want) s (signature env depth d) fun s' τ =>
          Found env s s' id τ [] := by
      refine (h.signature s d hdecl).imp (fun hs => ⟨hs.1.orderly, hknown hs.1, ?_, ?_⟩) ?_
      · have hlt := hs.1.lt
        simp [listing_of_isExpression hscene hf rfl, Form.children] at hlt
        omega
      · exact reached_of_outside (hscene.declared id (hs.1.prepared.mem_reached hmem) d hd).1
      · rintro s' τ - ⟨hpasses, hτ⟩
        refine hpasses.found (hpasses.has hτ) fun Γ hΓ hid => .intro hf ?_
        exact ⟨d, τ, hd, hΓ.info d τ trivial hτ, hid⟩
    dsimp only
    split
    · rename_i hkind
      exact hfunction (.inl hkind)
    · rename_i hkind
      exact hfunction (.inr hkind)
    · rename_i hfun hforeign
      refine .read (.pure ?_)
      rintro ⟨hready, -⟩
      rcases hknown hready with ⟨τ, hτ⟩ | ⟨hdecl, -⟩
      · have hget : s.info.getD d 0 = τ := by
          rw [Std.TreeMap.getD_eq_getD_getElem?, show s.info[d]? = some τ from hτ]
          rfl
        rw [hget]
        exact .leaf hready.orderly (hready.orderly.has d τ hτ) hf fun Γ hΓ hid =>
          ⟨d, τ, hd, hΓ.info d τ trivial hτ, hid⟩
      · exact (hdecl.elim hfun hforeign).elim

theorem quiet_not (h : Completes env depth) {x want : Nat} (hf : env.tree.form? id = some (.unary .not x)) :
    Quiet (Ready env s (listing env.tree x) depth ∧ Wanted s want) s
      (Check.exprType env (depth + 1) id want) fun s' τ =>
      Found env s s' id τ (listing env.tree x) := by
  unfold Check.exprType
  simp only [hf]
  refine (h.boolean s x (.of_part hscene hf (by simp [Form.parts]))).bind And.left fun s' _ => .pure ?_
  rintro ⟨-, hpasses, hfits⟩
  exact hpasses.found hpasses.has_bool fun Γ hΓ hτ => .intro hf ⟨hfits.grow hΓ trivial, hτ⟩

theorem quiet_negate (h : Completes env depth) {x want : Nat} (hf : env.tree.form? id = some (.unary .negate x)) :
    Quiet (Ready env s (listing env.tree x) depth ∧ Wanted s want) s
      (Check.exprType env (depth + 1) id want) fun s' τ =>
      Found env s s' id τ (listing env.tree x) := by
  unfold Check.exprType
  simp only [hf]
  refine (h.expr s x want (.of_part hscene hf (by simp [Form.parts]))).bind
    (fun ⟨hready, hwant⟩ => ⟨hready.mono (Nat.le_succ _), hwant⟩) fun s' τ =>
    .resolved? (.ite (fun _ => .reported_pure) fun hnum => ?_)
  refine .pure ?_
  rintro ⟨-, hpasses, hτ⟩
  have hne := (hpasses.has hτ).ne_zero
  cases ht : s'.types.resolved? τ with
  | none => simp [ht, hne] at hnum
  | some t =>
    have hnumeric : t.isNumeric = true := by simpa [ht, hne] using hnum
    refine hpasses.found (hpasses.has hτ) fun Γ hΓ hid => .intro hf ?_
    exact ⟨τ, t, hΓ.info x τ trivial hτ, hΓ.types.resolved? ht, hnumeric, hid⟩

theorem quiet_logical (h : Completes env depth) {op : BinaryOp} {x y want : Nat}
    (hf : env.tree.form? id = some (.binary op x y)) (hop : op.isLogical = true) :
    Quiet (Ready env s (listing env.tree x ++ listing env.tree y) depth ∧ Wanted s want) s
      (Check.exprType env (depth + 1) id want) fun s' τ => Found env s s' id τ
        (listing env.tree x ++ listing env.tree y) := by
  unfold Check.exprType
  simp only [hf, hop, if_true]
  refine (h.boolean s x (.of_part hscene hf (by simp [Form.parts]))).bind (fun hs => hs.1.front hscene) fun s₁ _ =>
    ?_
  refine (h.boolean s₁ y (.of_part hscene hf (by simp [Form.parts]))).bind
    (fun hs => hs.1.1.back hscene hs.2.1) fun s₂ _ => .pure ?_
  rintro ⟨⟨-, hx, hxfits⟩, hy, hyfits⟩
  refine (hx.append hscene hy).found hy.has_bool fun Γ hΓ hτ => .intro hf ?_
  simp only [Obeys, hop, if_true]
  exact ⟨(hxfits.grow hy.typing trivial).grow hΓ trivial, hyfits.grow hΓ trivial, hτ⟩

theorem quiet_member (h : Completes env depth) {x want : Nat} {name : String}
    (hf : env.tree.form? id = some (.member x name)) :
    Quiet (Ready env s (listing env.tree x) depth ∧ Wanted s want) s
      (Check.exprType env (depth + 1) id want) fun s' τ =>
      Found env s s' id τ (listing env.tree x) := by
  unfold Check.exprType
  simp only [hf]
  refine (h.expr s x 0 (.of_part hscene hf (by simp [Form.parts]))).bind
    (fun hs => ⟨hs.1.mono (Nat.le_succ _), .none s⟩) fun s' ο => ?_
  refine .known (fun hs => (hs.2.1.has hs.2.2).ne_zero) fun _ => .resolved? ?_
  split
  · refine .read ?_
    cases hprop : s'.types.prop? ο name with
    | none => exact .typeText .reported_pure
    | some p =>
      refine .pure ?_
      rintro ⟨-, hpasses, hο⟩
      obtain ⟨rfl, hhas, -⟩ := hpasses.visits.orderly.stocked.prop? hprop
      refine hpasses.found hhas fun Γ hΓ hτ => .intro hf ?_
      exact ⟨ο, p.2, hΓ.info x ο trivial hο, hΓ.types.prop? hprop, hτ⟩
  · exact .typeText .reported_pure

theorem quiet_assign (h : Completes env depth) {target value want : Nat} 
    (hf : env.tree.form? id = some (.assign target value)) :
    Quiet (Ready env s (listing env.tree target ++ listing env.tree value) depth ∧ Wanted s want) s
      (Check.exprType env (depth + 1) id want) fun s' τ =>
        Found env s s' id τ (listing env.tree target ++ listing env.tree value) := by
  have hrest (s : State) : Quiet (Ready env s (listing env.tree target ++ listing env.tree value) depth) s (do
      let want ← Check.expr env depth target 0
      let got ← Check.expr env depth value want
      expect (env.tree.span value) want got
      return want) fun s' τ => Passes env s s' (listing env.tree target ++ listing env.tree value) ∧
        s'.typing.HasType target τ ∧ s'.typing.Fits value τ := by
    refine (h.expr s target 0 (.of_part hscene hf (by simp [Form.parts]))).bind
      (fun hready => ⟨(hready.front hscene).mono (Nat.le_succ _), .none s⟩) fun s₁ τ => ?_
    refine (h.expr s₁ value τ (.of_part hscene hf (by simp [Form.parts]))).bind (fun hs =>
      ⟨(hs.1.back hscene hs.2.1).mono (Nat.le_succ _), .inr (hs.2.1.has hs.2.2)⟩) fun s₂ σ => ?_
    refine (Quiet.expect _ τ σ).bind (fun hs => hs) fun s₃ _ => .pure ?_
    rintro ⟨⟨⟨-, htarget, hτ⟩, hvalue, hσ⟩, rfl, hassign⟩
    refine ⟨htarget.append hscene hvalue, hvalue.typing.info target τ trivial hτ, σ, hσ,
      hassign ?_ (hvalue.has hσ).ne_zero⟩
    exact (htarget.has hτ).ne_zero
  unfold Check.exprType
  simp only [hf]
  split
  · exact .reported fun s' => (hrest s').void
  · exact .reported fun s' => (hrest s').void
  · exact .reported fun s' => (hrest s').void
  · rename_i hconst hfunction hforeign
    refine (hrest s).imp And.left ?_
    rintro s' τ - ⟨hpasses, htarget, hvalue⟩
    refine hpasses.found (hpasses.has htarget) fun Γ hΓ hτ => .intro hf ?_
    refine ⟨⟨τ, hΓ.info target τ trivial htarget, hvalue.grow hΓ trivial, hτ⟩, fun name d hname hd hmem => ?_⟩
    have hkind : (env.table.decl? target).map (symbolKind env.tree) = some (symbolKind env.tree d) := by
      rw [hd]; rfl
    simp only [List.mem_cons, List.not_mem_nil, or_false] at hmem
    rcases hmem with heq | heq | heq <;> rw [heq] at hkind
    · exact hconst name hname hkind
    · exact hfunction name hname hkind
    · exact hforeign name hname hkind

theorem quiet_call (h : Completes env depth) {callee want : Nat} {args : List Nat}
    (hf : env.tree.form? id = some (.call callee args)) :
    Quiet (Ready env s (listing env.tree callee ++ args.flatMap (listing env.tree)) depth ∧ Wanted s want) s
      (Check.exprType env (depth + 1) id want) fun s' τ =>
        Found env s s' id τ (listing env.tree callee ++ args.flatMap (listing env.tree)) := by
  have hargs : ∀ a ∈ args, IsExpr env.tree a := fun a ha => .of_part hscene hf (by simp [Form.parts, ha])
  unfold Check.exprType
  simp only [hf]
  refine (h.expr s callee 0 (.of_part hscene hf (by simp [Form.parts]))).bind
    (fun hs => ⟨(hs.1.front hscene).mono (Nat.le_succ _), .none s⟩) fun s₁ φ => ?_
  refine .ite (fun hzero => ?_) fun _ => .resolved? ?_
  · -- a callee has a type
    refine (Quiet.forM (I := fun _ _ => False) args (fun a ha _ s => ?_) s₁).bind ?_ fun s₂ _ =>
      .pure fun hs => hs.2.elim
    · exact (h.expr s a 0 (hargs a ha)).void.discard
    · exact fun hs => (hs.2.1.has hs.2.2).ne_zero hzero
  split
  · rename_i params result hφ
    have hrest (s₂ : State) : Quiet (s₂ = s₁ ∧ args.length = params.length ∧
        (Ready env s (listing env.tree callee ++ args.flatMap (listing env.tree)) depth ∧ Wanted s want) ∧
          Passes env s s₁ (listing env.tree callee) ∧ s₁.typing.HasType callee φ) s₂ (do
        arguments env depth args params
        return result) fun s' τ =>
          Found env s s' id τ (listing env.tree callee ++ args.flatMap (listing env.tree)) := by
      refine (h.arguments s₂ args params hargs).bind ?_ fun s₃ _ => .pure ?_
      · rintro ⟨rfl, hlength, ⟨hready, -⟩, hcallee, -⟩
        refine ⟨hready.back hscene hcallee, hlength, fun p hp => ?_⟩
        exact hcallee.visits.orderly.stocked.has_parts hφ p (List.mem_cons_of_mem _ hp)
      · rintro ⟨⟨rfl, -, -, hcallee, hτ⟩, hpasses, hfits⟩
        have hresult := hcallee.visits.orderly.stocked.has_parts hφ result List.mem_cons_self
        refine (hcallee.append hscene hpasses).found (hresult.extends hpasses.typing.types) fun Γ hΓ hid =>
          .intro hf ?_
        have hcallee := hΓ.info callee φ trivial (hpasses.typing.info callee φ trivial hτ)
        exact ⟨φ, params, result, hcallee, hΓ.types.resolved? (hpasses.typing.types.resolved? hφ),
          hfits.imp fun _ _ hfits => hfits.grow hΓ trivial, hid⟩
    refine .ite (fun _ => .reported fun s' => (hrest s').void) fun hlength => ?_
    exact (hrest s₁).imp (fun hs => ⟨rfl, Decidable.not_not.1 hlength, hs⟩) fun _ _ _ hfound => hfound
  · exact .typeText .reported_pure

omit hscene in
theorem Completes.boolean_succ (h : Completes env depth) (s : State) (id : Nat) (hid : IsExpr env.tree id) :
    Quiet (Ready env s (listing env.tree id) (depth + 1)) s (Check.boolean env (depth + 1) id) fun s' _ =>
      Passes env s s' (listing env.tree id) ∧ s'.typing.Fits id boolId := by
  unfold Check.boolean
  refine (h.expr s id boolId hid).bind (fun hready => ⟨hready, .inr ?_⟩) fun s₁ τ =>
    (Quiet.expect _ boolId τ).imp (fun hs => hs) ?_
  · exact hready.orderly.stocked.has_primitive "boolean" rfl
  · rintro s₂ - ⟨-, hpasses, hτ⟩ ⟨rfl, hassign⟩
    exact ⟨hpasses, τ, hτ, hassign (by decide) (hpasses.has hτ).ne_zero⟩

theorem length_listing_pos (hid : IsExpr env.tree id) : 0 < (listing env.tree id).length := by
  obtain ⟨f, hf, -⟩ := hid
  exact List.length_pos_of_mem (self_mem_listing hscene.linked hf)

/-- A list of nodes takes more steps than its rest. -/
theorem Ready.rest {c : Nat} {cs : List Nat} {steps : Nat} (hpos : 0 < (listing env.tree c).length)
    (h : Ready env s ((c :: cs).flatMap (listing env.tree)) (steps + 1))
    (hs : Passes env s s' (listing env.tree c)) :
    Ready env s' (cs.flatMap (listing env.tree)) steps := by
  have hlt := h.lt
  rw [List.flatMap_cons, List.length_append] at hlt
  exact ⟨(h.back hscene hs).prepared, by omega⟩

theorem Completes.arguments_succ (h : Completes env depth) (s : State) (args params : List Nat)
    (hargs : ∀ a ∈ args, IsExpr env.tree a) :
    Quiet (Ready env s (args.flatMap (listing env.tree)) (depth + 1) ∧ args.length = params.length ∧
        ∀ p ∈ params, s.types.Has p) s (Check.arguments env (depth + 1) args params) fun s' _ =>
      Passes env s s' (args.flatMap (listing env.tree)) ∧ List.Forall₂ s'.typing.Fits args params := by
  cases args with
  | nil =>
    unfold Check.arguments
    refine .pure ?_
    rintro ⟨hready, hlength, -⟩
    obtain rfl : params = [] := List.length_eq_zero_iff.1 hlength.symm
    exact ⟨.nil hready.orderly, .nil⟩
  | cons a args =>
    rw [List.forall_mem_cons] at hargs
    unfold Check.arguments
    refine (h.expr s a (params.headD 0) hargs.1).bind ?_ fun s₁ σ => ?_
    · rintro ⟨hready, hlength, hhas⟩
      cases params with
      | nil => exact nomatch hlength
      | cons p ps => exact ⟨hready.front hscene, .inr (hhas p List.mem_cons_self)⟩
    refine (Quiet.expect _ _ σ).bind (fun hs => hs) fun s₂ _ => (h.arguments s₂ args params.tail hargs.2).imp ?_ ?_
    · rintro ⟨⟨⟨hready, hlength, hhas⟩, hpasses, hσ⟩, rfl, -⟩
      refine ⟨hready.rest hscene (length_listing_pos hscene hargs.1) hpasses, ?_, fun q hq => ?_⟩
      · rw [List.length_tail, ← hlength]
        rfl
      exact (hhas q (List.mem_of_mem_tail hq)).extends hpasses.typing.types
    · rintro s₃ - ⟨⟨⟨hready, hlength, hhas⟩, hpasses, hσ⟩, rfl, hassign⟩ ⟨hpasses', hfits⟩
      cases params with
      | nil => exact nomatch hlength
      | cons p ps =>
        have hfirst : s₂.typing.Fits a p :=
          ⟨σ, hσ, hassign (hhas p List.mem_cons_self).ne_zero (hpasses.has hσ).ne_zero⟩
        exact ⟨hpasses.append hscene hpasses', .cons (hfirst.grow hpasses'.typing trivial) hfits⟩

/-! ### Objects -/

section

variable {p value : Nat} {name : String} (hp : env.tree.form? p = some (.property name value))
include hp

theorem listing_property : listing env.tree p = p :: listing env.tree value := by
  rw [listing_eq hscene.linked hp]
  simp [Form.isType, Form.children]

/-- The value of a property can be visited before the other properties. -/
theorem Ready.property {rest : List Nat} {steps : Nat}
    (h : Ready env s ((p :: rest).flatMap (listing env.tree)) steps) :
    Ready env s (listing env.tree value) steps := by
  have hfront := h.front hscene
  rw [listing_property hscene hp] at hfront
  obtain ⟨hprepared, hlt⟩ := hfront
  rw [List.length_cons] at hlt
  refine ⟨hprepared.below fun u hu hd => ?_, by omega⟩
  obtain ⟨-, hdecl, -⟩ := hscene.declared u (hprepared.mem_reached (List.mem_cons_of_mem _ hu)) p hd
  simp [Tree.isDeclaration, hp] at hdecl

/-- A property gets the type that its value fits. -/
theorem Passes.property {rest : List Nat} {steps : Nat}
    (hready : Ready env s ((p :: rest).flatMap (listing env.tree)) steps)
    (h : Passes env s s' (listing env.tree value)) (hhas : s'.types.Has τ) (hfits : s'.typing.Fits value τ) :
    Passes env s (s'.recorded p τ) (listing env.tree p) ∧ (s'.recorded p τ).typing.HasType p τ := by
  have hprepared := (hready.front hscene).prepared
  rw [listing_property hscene hp] at hprepared ⊢
  refine Found.recorded (h.found hhas fun Γ hΓ hτ => ?_) hscene hprepared
    (.of_kind hscene (symbolKind_of_form hp) (.inl rfl))
  exact .intro hp ⟨τ, hτ, hfits.grow hΓ trivial⟩

end

theorem Completes.expectedProps_succ (h : Completes env depth) (s : State) (want : Nat) (props : List Nat)
    (fields : List (String × Nat))
    (hprops : ∀ p ∈ props, ∃ name value, env.tree.form? p = some (.property name value)) :
    Quiet (Ready env s (props.flatMap (listing env.tree)) (depth + 1) ∧ s.types.resolved? want =
      some (.object fields)) s (Check.expectedProps env (depth + 1) want props) fun s' r =>
        r = true ∧ Passes env s s' (props.flatMap (listing env.tree)) ∧
          ∀ p ∈ props, ∃ σ, s'.typing.HasType p σ ∧ (env.tree.name p, σ) ∈ fields := by
  cases props with
  | nil =>
    unfold Check.expectedProps
    exact .pure fun ⟨hready, _⟩ => ⟨rfl, .nil hready.orderly, nofun⟩
  | cons p rest =>
    rw [List.forall_mem_cons] at hprops
    obtain ⟨⟨name, value, hp⟩, hrest⟩ := hprops
    have hname : env.tree.name p = name := by simp [Tree.name, hp, Form.name]
    have hvalue : IsExpr env.tree value := .of_part hscene hp (by simp [Form.parts])
    have hpos : 0 < (listing env.tree p).length := by simp [listing_property hscene hp]
    unfold Check.expectedProps
    simp only [hp]
    refine .read ?_
    cases hprop : s.types.prop? want name with
    | none =>
      refine .typeText (.reported fun s₁ => (h.expr s₁ value 0 hvalue).bind False.elim fun s₂ _ => ?_)
      exact (h.expectedProps s₂ want rest fields hrest).bind (fun hs => hs.1.elim) fun _ _ =>
        .pure fun hs => hs.1.1.elim
    | some q =>
      obtain ⟨qname, type⟩ := q
      dsimp only
      refine (h.expr s value type hvalue).bind ?_ fun s₁ σ => ?_
      · rintro ⟨hready, -⟩
        exact ⟨hready.property hscene hp, .inr (hready.orderly.stocked.prop? hprop).2.1⟩
      refine (quiet_record p type).bind (fun hs => hs) fun s₂ _ => .assignable (.ite (fun _ => ?_) fun hfits => ?_)
      · refine Quiet.never (.reportMismatch _ _ _) fun s₃ _ => ?_
        exact (h.expectedProps s₃ want rest fields hrest).bind False.elim fun _ _ => .pure fun hs => hs.1.elim
      -- the property is recorded and its value fits
      have hproperty : Ready env s ((p :: rest).flatMap (listing env.tree)) (depth + 1) →
          s.types.resolved? want = some (.object fields) → Passes env s s₁ (listing env.tree value) →
          s₁.typing.HasType value σ → (type ≠ 0 → s₂ = s₁.recorded p type) →
          Passes env s s₂ (listing env.tree p) ∧ s₂.typing.HasType p type ∧ (env.tree.name p, type) ∈ fields := by
        intro hready hwant hpasses hσ hs₂
        obtain ⟨rfl, hhas, fields', hwant', hmem⟩ := hready.orderly.stocked.prop? hprop
        obtain rfl := hs₂ hhas.ne_zero
        obtain rfl : fields' = fields := Ty.object.inj (Option.some.inj (hwant'.symm.trans hwant))
        have hassign : s₁.types.assignable type σ = true := by
          simpa [(hpasses.has hσ).ne_zero, State.recorded] using hfits
        obtain ⟨hpasses', hτ⟩ :=
          hpasses.property hscene hp hready (hhas.extends hpasses.typing.types) ⟨σ, hσ, hassign⟩
        exact ⟨hpasses', hτ, hname ▸ hmem⟩
      refine (h.expectedProps s₂ want rest fields hrest).bind ?_ fun s₃ r => .pure ?_
      · rintro ⟨⟨⟨hready, hwant⟩, hpasses, hσ⟩, -, hs₂⟩
        obtain ⟨hpasses', -⟩ := hproperty hready hwant hpasses hσ hs₂
        exact ⟨hready.rest hscene hpos hpasses', hpasses'.typing.types.resolved? hwant⟩
      · rintro ⟨⟨⟨⟨hready, hwant⟩, hpasses, hσ⟩, -, hs₂⟩, rfl, hpasses₃, hfields⟩
        obtain ⟨hpasses', hτ, hmem⟩ := hproperty hready hwant hpasses hσ hs₂
        have hfits : (σ == 0 || s₂.types.assignable type σ) = true := by
          by_cases hσ : σ = 0 <;> simp_all
        refine ⟨by simpa using hfits, hpasses'.append hscene hpasses₃, List.forall_mem_cons.2 ⟨?_, hfields⟩⟩
        exact ⟨type, hpasses₃.typing.info p type trivial hτ, hmem⟩

theorem Completes.inferredProps_succ (h : Completes env depth) (s : State) (props : List Nat)
    (hprops : ∀ p ∈ props, ∃ name value, env.tree.form? p = some (.property name value)) :
    Quiet (Ready env s (props.flatMap (listing env.tree)) (depth + 1)) s (Check.inferredProps env (depth + 1) props)
      fun s' r => ∃ fields, r = some fields ∧ Passes env s s' (props.flatMap (listing env.tree)) ∧
        Fielded env s'.typing props fields := by
  cases props with
  | nil =>
    unfold Check.inferredProps
    exact .pure fun hready => ⟨[], rfl, .nil hready.orderly, by simp, by simp⟩
  | cons p rest =>
    rw [List.forall_mem_cons] at hprops
    obtain ⟨⟨name, value, hp⟩, hrest⟩ := hprops
    have hname : env.tree.name p = name := by simp [Tree.name, hp, Form.name]
    have hvalue : IsExpr env.tree value := .of_part hscene hp (by simp [Form.parts])
    have hpos : 0 < (listing env.tree p).length := by simp [listing_property hscene hp]
    unfold Check.inferredProps
    simp only [hp]
    refine (h.expr s value 0 hvalue).bind (fun hready => ⟨hready.property hscene hp, .none s⟩) fun s₁ τ => ?_
    refine .known (fun hs => (hs.2.1.has hs.2.2).ne_zero) fun hne => .resolved? ?_
    refine .ite (fun _ => .reported_pure) fun _ => (quiet_record p τ).bind (fun hs => hs) fun s₂ _ => ?_
    have hproperty : Ready env s ((p :: rest).flatMap (listing env.tree)) (depth + 1) →
        Passes env s s₁ (listing env.tree value) → s₁.typing.HasType value τ → (τ ≠ 0 → s₂ = s₁.recorded p τ) →
        Passes env s s₂ (listing env.tree p) ∧ s₂.typing.HasType p τ := by
      intro hready hpasses hτ hs₂
      obtain rfl := hs₂ hne
      exact hpasses.property hscene hp hready (hpasses.has hτ) (.of_hasType hτ)
    refine (h.inferredProps s₂ rest hrest).bind ?_ fun s₃ r => ?_
    · rintro ⟨⟨hready, hpasses, hτ⟩, -, hs₂⟩
      exact hready.rest hscene hpos (hproperty hready hpasses hτ hs₂).1
    cases r with
    | none => exact .pure (by rintro ⟨-, fields, ⟨⟩, -⟩)
    | some fields =>
      refine .pure ?_
      rintro ⟨⟨⟨hready, hpasses, hτ⟩, -, hs₂⟩, fields', hsome, hpasses₃, hfields⟩
      obtain rfl := Option.some.inj hsome
      obtain ⟨hpasses', hτ'⟩ := hproperty hready hpasses hτ hs₂
      have hτ'' := hpasses₃.typing.info p τ trivial hτ'
      refine ⟨_, rfl, hpasses'.append hscene hpasses₃, List.forall_mem_cons.2 ⟨?_, fun q hq => ?_⟩,
        List.forall_mem_cons.2 ⟨⟨p, List.mem_cons_self, hname, hτ''⟩, fun field hfield => ?_⟩⟩
      · exact ⟨τ, hτ'', hname ▸ List.mem_cons_self⟩
      · obtain ⟨σ, hσ, hmem⟩ := hfields.each q hq
        exact ⟨σ, hσ, List.mem_cons_of_mem _ hmem⟩
      · obtain ⟨q, hq, hboth⟩ := hfields.only field hfield
        exact ⟨q, List.mem_cons_of_mem _ hq, hboth⟩

omit hscene in
theorem quiet_reportMissing (span : Source.Span) (present : List String) (fields : List (String × Nat)) :
    Quiet P s (reportMissing span present fields) fun s' r => s' = s ∧ r = false ∧ ∀ field ∈ fields,
      field.1 ∈ present := by
  unfold reportMissing
  dsimp only
  cases hmissing : fields.filter fun p => !present.contains p.1 with
  | nil =>
    refine .pure fun _ => ⟨rfl, rfl, fun field hfield => ?_⟩
    simpa using List.filter_eq_nil_iff.1 hmissing field hfield
  | cons q rest =>
    refine Quiet.never (Quiet.reported fun s' => ?_) fun s' _ => .pure False.elim
    exact (Quiet.forM (I := fun _ _ => False) rest (fun q _ _ s => .report span (.missingProperty q.1)) s').imp
      (fun hs => hs) fun _ _ => False.elim

theorem quiet_object (h : Completes env depth) {props : List Nat} {want : Nat}
    (hf : env.tree.form? id = some (.object props)) :
    Quiet (Ready env s (props.flatMap (listing env.tree)) depth ∧ Wanted s want) s
      (Check.exprType env (depth + 1) id want) fun s' τ => Found env s s' id τ
        (props.flatMap (listing env.tree)) := by
  have hprops : ∀ p ∈ props, ∃ name value, env.tree.form? p = some (.property name value) := fun p hp =>
    hscene.linked.property_part hf (by simpa [Form.parts] using hp)
  unfold Check.exprType
  simp only [hf]
  refine .ite (fun _ => .reported_pure) fun hempty => .resolved? ?_
  have hne : props ≠ [] := by simpa using hempty
  split
  · rename_i fields hwant
    refine (h.expectedProps s want props fields hprops).bind (fun hs => ⟨hs.1, hwant⟩) fun s₁ fits => ?_
    refine (quiet_reportMissing _ _ fields).bind (fun hs => hs) fun s₂ missing => .pure ?_
    rintro ⟨⟨⟨-, hwanted⟩, rfl, hpasses, hfields⟩, rfl, rfl, hpresent⟩
    have hmeans := hpasses.typing.types.resolved? hwant
    refine hpasses.found (Interner.has_of_resolved? hmeans) fun Γ hΓ hτ => .intro hf ?_
    refine ⟨hne, want, fields, hτ, hΓ.types.resolved? hmeans, ?_, ?_⟩
    · intro p hp
      obtain ⟨σ, hσ, hmem⟩ := hfields p hp
      exact ⟨σ, hΓ.info p σ trivial hσ, hmem⟩
    · intro field hfield
      obtain ⟨p, hp, hname⟩ := List.mem_map.1 (hpresent field hfield)
      exact ⟨p, hp, hname⟩
  · refine (h.inferredProps s props hprops).bind And.left fun s₁ r => ?_
    cases r with
    | none => exact .pure (by rintro ⟨-, fields, ⟨⟩, -⟩)
    | some fields =>
      have hmem {field : String × Nat} : field ∈ sortProps fields ↔ field ∈ fields :=
        (Order.sorted_perm _ fields).mem_iff
      refine quiet_internObject.imp ?_ ?_
      · rintro ⟨-, fields', hsome, hpasses, hfields⟩
        obtain rfl := Option.some.inj hsome
        refine ⟨hpasses.visits.orderly.stocked, fun field hfield => ?_⟩
        obtain ⟨p, -, hname, hσ⟩ := hfields.only field hfield
        exact ⟨hname ▸ hscene.named p, hpasses.has hσ⟩
      · rintro s₂ τ ⟨-, fields', hsome, hpasses, hfields⟩ ⟨hinterns, -, hlookup⟩
        obtain rfl := Option.some.inj hsome
        have hmeans : s₂.types.resolved? τ = some (.object (sortProps fields)) :=
          Interner.resolved?_of_lookup? hlookup (by simp)
        refine (hpasses.interns hscene.linked hinterns).found ⟨_, hlookup⟩ fun Γ hΓ hτ => .intro hf ?_
        refine ⟨hne, τ, _, hτ, hΓ.types.resolved? hmeans, fun p hp => ?_, fun field hfield => ?_⟩
        · obtain ⟨σ, hσ, hp⟩ := hfields.each p hp
          exact ⟨σ, hΓ.info p σ trivial (hinterns.hasType.2 hσ), hmem.2 hp⟩
        · obtain ⟨p, hp, hname, -⟩ := hfields.only field (hmem.1 hfield)
          exact ⟨p, hp, hname⟩

/-! ### Operators on two operands -/

omit hscene in
/-- A number gets its type anew when it turns out that an integer is wanted. -/
theorem quiet_renumber {x β width : Nat} {value : Float} (hx : env.tree.form? x = some (.number value))
    (hβ : s.types.resolved? β = some (.int width)) :
    Quiet (2 ≤ depth) s (Check.expr env depth x β) fun s' α => α = β ∧ s' = s.recorded x β := by
  match depth with
  | 0 =>
    unfold Check.expr
    exact .pure fun h => by omega
  | 1 =>
    unfold Check.expr Check.exprType
    exact (quiet_record x 0).imp (fun h => h) fun _ _ h => by omega
  | depth + 2 =>
    have htype : Quiet True s (Check.exprType env (depth + 1) x β) fun s' τ => τ = β ∧ s' = s := by
      unfold Check.exprType
      simp only [hx]
      refine .resolved? ?_
      simp only [hβ]
      exact .pure fun _ => ⟨rfl, rfl⟩
    unfold Check.expr
    refine htype.bind (fun _ => trivial) fun s' τ => (quiet_record x τ).imp (fun h => h) ?_
    rintro s'' α ⟨-, rfl, rfl⟩ ⟨rfl, hs''⟩
    exact ⟨rfl, hs'' (Interner.has_of_resolved? hβ).ne_zero⟩

/-- The number keeps to its rule, and so does what was visited after it. -/
theorem Passes.renumbered {x y β width : Nat} {value : Float}
    (h : Passes env s s' (listing env.tree x ++ listing env.tree y)) (hx : env.tree.form? x = some (.number value))
    (hβ : s'.types.resolved? β = some (.int width))
    (hprepared : Prepared env s (listing env.tree x ++ listing env.tree y)) :
    Passes env s (s'.recorded x β) (listing env.tree x ++ listing env.tree y) := by
  have hlist : listing env.tree x = [x] := listing_of_isExpression hscene hx rfl
  have hkind : symbolKind env.tree x = .invalid := symbolKind_of_form hx
  have hlate : Late env x := .of_kind hscene hkind (.inl rfl)
  have hgrows := growsOn_recorded s' x β
  have hβx : (s'.recorded x β).typing.HasType x β := hasType_recorded.2 (.inl ⟨rfl, rfl⟩)
  rw [hlist, List.singleton_append] at h hprepared ⊢
  have hnotin : x ∉ listing env.tree y := (List.nodup_cons.1 (hscene.nodup.sublist hprepared.placed)).1
  refine ⟨⟨⟨⟨h.typing.types, fun v σ _ hσ => ?_⟩, h.visits.busy, fun v σ hσ => ?_, h.visits.done, h.visits.kept⟩,
    ?_, fun v hv => ?_⟩, h.frames⟩
  · -- the number had no type at first
    refine hgrows.info v σ (.inr ?_) (h.typing.info v σ trivial hσ)
    rintro rfl
    exact hlate.early ((hprepared.fresh v List.mem_cons_self).2 σ hσ)
  · rcases hasType_recorded.1 hσ with ⟨rfl, -⟩ | ⟨-, hσ⟩
    · exact .inr (.inl List.mem_cons_self)
    · exact h.visits.fresh v σ hσ
  · exact h.visits.orderly.recorded hscene (Interner.has_of_resolved? hβ) hlate (.inr hkind)
  · rcases List.mem_cons.1 hv with rfl | hy
    · exact .intro hx (.inr ⟨β, width, hβx, hβ⟩)
    intro g hg
    refine (h.visits.judged v hv g hg).mono hscene.linked hg hgrows (fun d hd => .inr ?_) (fun d hd => .inr ?_)
      fun u hu => .inr ?_
    · rintro rfl
      exact nomatch hd.symm.trans hkind
    · rintro rfl
      exact decl?_ne_of_isExpression hscene hx rfl (hprepared.mem_reached hv) hd
    · rintro rfl
      exact hnotin (listing_trans hy hu)

omit hscene in
theorem quiet_operands {op : BinaryOp} {x y α β : Nat} (hf : env.tree.form? id = some (.binary op x y))
    (hop : op.isLogical = false) (s₂ : State) :
    Quiet (Passes env s s₂ ns ∧ s₂.typing.HasType x α ∧ s₂.typing.HasType y β) s₂ (do
      let tx ← resolved? α
      if op.isEquality then
        if !(← assignable α β) && !(← assignable β α) then
          report (env.tree.span id) (.incomparable (← typeText α) (← typeText β))
          return 0
        if tx = some .string then
          report (env.tree.span id) .stringComparison
          return 0
        return boolId
      if !(tx.elim false Ty.isNumeric) || !((← get).types.identical α β) then
        report (env.tree.span id) (.nonNumericOperands op.token.name (← typeText α) (← typeText β))
        return 0
      return if op.isArithmetic then α else boolId) fun s' τ => Found env s s' id τ ns := by
  have hoperates {τ : Nat} (hhas : Passes env s s₂ ns → s₂.typing.HasType x α → s₂.types.Has τ)
      (hrule : ∀ t Γ, Grows s₂.typing Γ → Γ.HasType id τ → s₂.types.resolved? α = some t →
        if op.isEquality then
          (Γ.types.assignable α β = true ∨ Γ.types.assignable β α = true) ∧ t ≠ .string ∧ Γ.HasType id boolId
        else t.isNumeric = true ∧ Γ.types.identical α β = true ∧
          Γ.HasType id (if op.isArithmetic then α else boolId)) :
      Passes env s s₂ ns ∧ s₂.typing.HasType x α ∧ s₂.typing.HasType y β → Found env s s₂ id τ ns := by
    rintro ⟨hpasses, hα, hβ⟩
    obtain ⟨t, ht⟩ := hpasses.visits.orderly.sound α (hpasses.has hα)
    refine hpasses.found (hhas hpasses hα) fun Γ hΓ hτ => .intro hf ?_
    simp only [Obeys, hop, Bool.false_eq_true, if_false]
    exact ⟨α, β, t, hΓ.info x α trivial hα, hΓ.info y β trivial hβ, hΓ.types.resolved? ht, hrule t Γ hΓ hτ ht⟩
  refine .resolved? (.ite
    (fun heq => .assignable (.assignable (.ite (fun _ => .typeText (.typeText .reported_pure)) fun hfits =>
    .ite (fun _ => .reported_pure) fun hstring =>
      .pure (hoperates (fun h _ => h.has_bool) fun t Γ hΓ hτ ht => ?_))))
    fun hne => .read (.ite (fun _ => .typeText (.typeText .reported_pure)) fun hnum =>
      .pure (hoperates (fun h hα => ?_) fun t Γ hΓ hτ ht => ?_)))
  · rw [if_pos heq]
    have hfits : s₂.types.assignable α β = true ∨ s₂.types.assignable β α = true := by
      by_cases hleft : s₂.types.assignable α β = true
      · exact .inl hleft
      · simp_all
    refine ⟨hfits.imp hΓ.types.assignable hΓ.types.assignable, ?_, hτ⟩
    rintro rfl
    exact hstring ht
  · split
    · exact h.has hα
    · exact h.has_bool
  · rw [if_neg hne]
    have hnumeric : t.isNumeric = true ∧ s₂.types.identical α β = true := by simpa [ht] using hnum
    exact ⟨hnumeric.1, hΓ.types.identical hnumeric.2, hτ⟩

theorem Completes.binary_succ (h : Completes env depth) (s : State) (id : Nat) (op : BinaryOp) (x y want : Nat)
    (hf : env.tree.form? id = some (.binary op x y)) (hop : op.isLogical = false) :
    Quiet (Ready env s (listing env.tree x ++ listing env.tree y) (depth + 1) ∧ Wanted s want) s
      (Check.binary env (depth + 1) id op x y want) fun s' τ =>
        Found env s s' id τ (listing env.tree x ++ listing env.tree y) := by
  have hx : IsExpr env.tree x := .of_part hscene hf (by simp [Form.parts])
  have hy : IsExpr env.tree y := .of_part hscene hf (by simp [Form.parts])
  unfold Check.binary
  dsimp only
  refine (h.expr s x _ hx).bind ?_ fun s₁ α => ?_
  · rintro ⟨hready, hwant⟩
    refine ⟨hready.front hscene, ?_⟩
    split
    · exact hwant
    · exact .none s
  refine .ite (fun hzero => ?_) fun _ => ?_
  · refine ((h.expr s₁ y 0 hy).void.bind (Q := fun _ _ => False) ?_ fun _ _ => .pure fun hs => hs.2.elim)
    exact fun hs => (hs.2.1.has hs.2.2).ne_zero hzero
  refine (h.expr s₁ y α hy).bind (fun hs => ⟨hs.1.1.back hscene hs.2.1, .inr (hs.2.1.has hs.2.2)⟩) fun s₂ β => ?_
  refine .known (fun hs => (hs.2.1.has hs.2.2).ne_zero) fun _ => .resolved? ?_
  have hboth : ((Ready env s (listing env.tree x ++ listing env.tree y) (depth + 1) ∧ Wanted s want) ∧
      Passes env s s₁ (listing env.tree x) ∧ s₁.typing.HasType x α) ∧ Passes env s₁ s₂ (listing env.tree y) ∧
        s₂.typing.HasType y β →
      Passes env s s₂ (listing env.tree x ++ listing env.tree y) ∧ s₂.typing.HasType x α ∧
        s₂.typing.HasType y β := by
    rintro ⟨⟨-, hpasses, hα⟩, hpasses', hβ⟩
    exact ⟨hpasses.append hscene hpasses', hpasses'.typing.info x α trivial hα, hβ⟩
  split
  · rename_i value width hx' hwidth
    refine (quiet_renumber hx' hwidth).bind ?_ fun s₃ α' => (quiet_operands hf hop s₃).imp ?_ fun _ _ _ h => h
    · rintro ⟨⟨⟨hready, -⟩, -⟩, -⟩
      have hlt := hready.lt
      have hpos := length_listing_pos hscene hx
      rw [List.length_append] at hlt
      omega
    · rintro ⟨hall, rfl, rfl⟩
      obtain ⟨hpasses, -, hβ⟩ := hboth hall
      have hprepared := hall.1.1.1.prepared
      have hne : y ≠ x := by
        rintro rfl
        have hself := self_mem_listing hscene.linked hx'
        exact List.disjoint_of_nodup_append (hscene.nodup.sublist hprepared.placed) hself hself
      refine ⟨hpasses.renumbered hscene hx' hwidth hprepared, hasType_recorded.2 (.inl ⟨rfl, rfl⟩), ?_⟩
      exact hasType_recorded.2 (.inr ⟨hne, hβ⟩)
  · exact (quiet_operands hf hop s₂).imp hboth fun _ _ _ h => h

end

end TypedScript.Check
