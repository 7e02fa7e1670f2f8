import TypedScript.Proofs.Check.Steps

/-!
# Checking goes by steps

Expressions, statements and the bodies of functions are checked by functions that call each other down to a depth.
All of them go by steps.

* `Rules`: a rule for each of these functions, proved together by induction on the depth.
* `program_induction`: what every step keeps holds when checking is done.

Checking records types for expressions and declarations. Whatever it reports on the way, the type that it records
for a function is a function type with a parameter for each parameter of the function.

* `Suited`: what every step of checking keeps for that.
* `resolved?_check`: what is recorded for a function.

More facts are read off the steps: all that is reported are errors, a use of a function by name has the type that
its declaration has, and the aliases that exist are those that the program declares.

* `isError_of_mem_check`: there are no warnings.
* `typeOf_use`: the type of a use of a function; `typeOf_unbound`: names that are not declared have none.
* `aliasNames_check`: the names of the aliases.
-/

/-! ## Steps -/

namespace TypedScript.Check

open TypedScript.Ast TypedScript.Binding TypedScript.Ty

variable {env : Env} {s : State} {id d : Nat}

/-- The rules for what is checked down to a depth. -/
structure Rules (env : Env) (depth : Nat) : Prop where
  expr : ∀ id want, Runs env (Goes env) (expr env depth id want)
  exprType : ∀ s id want, Leads env (Goes env) s (exprType env depth id want) fun s' type => type ≠ 0 →
    Fits env s' id type
  boolean : ∀ id, Runs env (Goes env) (boolean env depth id)
  arguments : ∀ args params, Runs env (Goes env) (arguments env depth args params)
  expectedProps : ∀ want props, Runs env (Goes env) (expectedProps env depth want props)
  inferredProps : ∀ props, Runs env (Goes env) (inferredProps env depth props)
  binary : ∀ id op x y want, Runs env (Goes env) (binary env depth id op x y want)
  stmt : ∀ id, Runs env (Goes env) (stmt env depth id)
  returnStmt : ∀ id value, Runs env (Goes env) (returnStmt env depth id value)
  signature : ∀ s id, DeclaresFunction env.tree id → Leads env (Goes env) s (signature env depth id) fun s' type =>
    type ≠ 0 → s'.signatures.lookup id = some type
  body : ∀ s id expected, Leads env (Goes env) s (body env depth id expected) fun s' _ =>
    IsInferred env.tree id → s.signatures.lookup id = none → s'.signatures.lookup id = none

namespace Rules

theorem zero (env : Env) : Rules env 0 := by
  constructor
  case exprType =>
    intro s id want
    simp only [Check.exprType]
    exact .pure fun h => absurd rfl h
  case signature =>
    intro s id _
    simp only [Check.signature]
    exact .pure fun h => absurd rfl h
  case body =>
    intro s id expected
    simp only [Check.body]
    exact .pure fun _ h => h
  all_goals
    intros
    simp only [Check.expr, Check.boolean, Check.arguments, Check.expectedProps, Check.inferredProps,
      Check.binary, Check.stmt,
      Check.returnStmt]
    exact .pure _

variable {depth : Nat}

theorem runs_body (h : Rules env depth) (id expected : Nat) : Runs env (Goes env)
    (Check.body env depth id expected) :=
  fun s => (h.body s id expected).imp fun _ _ _ => trivial

theorem runs_signature (h : Rules env depth) (hdecl : DeclaresFunction env.tree id) :
    Runs env (Goes env) (Check.signature env depth id) := fun s => (h.signature s id hdecl).imp fun _ _ _ => trivial

theorem expr_succ (h : Rules env depth) (id want : Nat) : Runs env (Goes env)
    (Check.expr env (depth + 1) id want) := by
  intro s
  unfold Check.expr
  exact (h.exprType s id want).bind fun _ _ _ hfits => leads_record hfits

/-- What has nothing to do with functions can have any type. -/
theorem fits {act : CheckM Nat} (h : Runs env (Goes env) act) (hid : Apart env id) :
    Leads env (Goes env) s act fun s' type => type ≠ 0 → Fits env s' id type := (h s).imp fun _ _ _ _ => .apart hid

/-- The type of an arrow function is made from as many types as it has parameters. -/
theorem arrowType_fits (h : Rules env depth) (hlinked : env.tree.Linked) {params : List Nat} {result : Option Nat}
    {inner : Nat} (hf : env.tree.form? id = some (.arrowFunc params result inner)) (expected : Option Ty)
    (want : Nat) :
    Leads env (Goes env) s (do
      match ← paramTypes env expected params 0 with
      | none => return 0
      | some types =>
        let result ← Check.body env depth id want
        if result = 0 then return 0 else internFunc types result) fun s' type => type ≠ 0 →
          Fits env s' id type := by
  have hparams : ∀ p ∈ params, ∃ name type, env.tree.form? p = some (.param name type) := fun p hp =>
    hlinked.param_part hf (by simp [Form.parts, hp])
  refine (leads_paramTypes expected hparams 0).bind fun s₁ types _ htypes => ?_
  split
  · exact .pure fun hne => absurd rfl hne
  · refine (h.runs_body id want).andThen fun s₂ result =>
      .ite (fun _ => .pure fun hne => absurd rfl hne) fun _ => ?_
    exact (leads_internFunc _ _).imp fun s₃ type hfunc _ => .arrow hf (htypes _ rfl ▸ hfunc)

/-- The use of the name of a function has the type of the function. -/
theorem nameType_fits (h : Rules env depth) {name : String} (hf : env.tree.form? id = some (.ident name)) :
    Leads env (Goes env) s (match env.table.decl? id with
      | none => return 0
      | some d =>
        match symbolKind env.tree d with
        | .function | .foreign => Check.signature env depth d
        | _ => typeOf d) fun s' type => type ≠ 0 → Fits env s' id type := by
  cases hd : env.table.decl? id with
  | none => exact .pure fun hne => absurd rfl hne
  | some d =>
    have hsignature (hdecl : DeclaresFunction env.tree d) : Leads env (Goes env) s (Check.signature env depth d)
        fun s' type => type ≠ 0 → Fits env s' id type :=
      (h.signature s d hdecl).imp fun s' type hfound hne => .use ⟨⟨name, hf⟩, hd, hdecl⟩ (hfound hne)
    dsimp only
    split
    · rename_i hkind
      exact hsignature (.inl hkind)
    · rename_i hkind
      exact hsignature (.inr hkind)
    · rename_i hfunction hforeign
      refine fits (Runs.get.bind fun _ => .pure _) (.of_name hf hd ?_)
      rintro (hkind | hkind)
      · exact hfunction hkind
      · exact hforeign hkind

theorem exprType_succ (h : Rules env depth) (hlinked : env.tree.Linked) (s : State) (id want : Nat) :
    Leads env (Goes env) s (Check.exprType env (depth + 1) id want) fun s' type => type ≠ 0 →
      Fits env s' id type := by
  have hfail (p : Problem) (span : Source.Span) (type : Nat) : Runs env (Goes env) (do
      report span p
      return type) := (runs_report span p).bind fun _ => .pure type
  have hzero {s : State} : Leads env (Goes env) s (pure 0) fun s' type => type ≠ 0 → Fits env s' id type :=
    .pure fun hne => absurd rfl hne
  unfold Check.exprType
  dsimp only
  split <;> rename_i hf
  · refine fits ((runs_resolved? want).bind fun _ => ?_) (.of_form hf rfl)
    split <;> exact .pure _
  · exact fits (.pure _) (.of_form hf rfl)
  · exact fits (.pure _) (.of_form hf rfl)
  · refine fits ((runs_resolved? want).bind fun _ => ?_) (.of_form hf rfl)
    split <;> exact .pure _
  · exact fits (.pure _) (.of_form hf rfl)
  · exact nameType_fits h hf
  · refine fits (.ite (hfail _ _ 0) ((runs_resolved? want).bind fun _ => ?_)) (.of_form hf rfl)
    split
    · exact (h.expectedProps _ _).bind fun _ => (runs_reportMissing _ _ _).bind fun _ => .pure _
    · refine (h.inferredProps _).bind fun _ => ?_
      split
      · exact runs_internObject _
      · exact .pure 0
  · refine fits ((h.expr _ _).bind fun obj => .ite (.pure 0) ((runs_resolved? obj).bind fun _ => ?_))
      (.of_form hf rfl)
    split
    · refine Runs.get.bind fun _ => ?_
      split
      · exact .pure _
      · exact (runs_typeText _).bind fun _ => hfail _ _ 0
    · exact (runs_typeText _).bind fun _ => hfail _ _ 0
  · refine fits ((h.expr _ _).bind fun f => .ite ?_ ((runs_resolved? f).bind fun _ => ?_)) (.of_form hf rfl)
    · exact Runs.bind (.forM fun a _ => (h.expr a 0).discard) fun _ => .pure 0
    · split
      · refine .ite ((runs_report _ _).bind fun _ => ?_) ?_ <;> exact (h.arguments _ _).bind fun _ => .pure _
      · exact (runs_typeText _).bind fun _ => hfail _ _ 0
  · refine fits ?_ (.of_form hf rfl)
    exact (h.expr _ _).bind fun type => (runs_resolved? type).bind fun _ => .ite (hfail _ _ 0) (.pure _)
  · exact fits ((h.boolean _).bind fun _ => .pure _) (.of_form hf rfl)
  · refine fits (.ite ?_ (h.binary _ _ _ _ _)) (.of_form hf rfl)
    exact (h.boolean _).bind fun _ => (h.boolean _).bind fun _ => .pure _
  · refine fits ?_ (.of_form hf rfl)
    have hassign (target value : Nat) : Runs env (Goes env) (do
        let want ← Check.expr env depth target 0
        let got ← Check.expr env depth value want
        expect (env.tree.span value) want got
        return want) :=
      (h.expr _ _).bind fun want => (h.expr _ _).bind fun got => (runs_expect _ _ _).bind fun _ => .pure want
    split
    · exact (runs_report _ _).bind fun _ => hassign _ _
    · exact (runs_report _ _).bind fun _ => hassign _ _
    · exact (runs_report _ _).bind fun _ => hassign _ _
    · exact hassign _ _
  · exact (runs_resolved? want).andThen fun _ expected => arrowType_fits h hlinked hf expected _
  · exact (runs_report _ _).andThen fun _ _ => hzero
  · exact hzero

theorem boolean_succ (h : Rules env depth) (id : Nat) : Runs env (Goes env) (Check.boolean env (depth + 1) id) := by
  unfold Check.boolean
  exact (h.expr _ _).bind fun _ => runs_expect _ _ _

theorem arguments_succ (h : Rules env depth) (args params : List Nat) :
    Runs env (Goes env) (Check.arguments env (depth + 1) args params) := by
  cases args with
  | nil =>
    unfold Check.arguments
    exact .pure ()
  | cons a args =>
    unfold Check.arguments
    exact (h.expr _ _).bind fun _ => (runs_expect _ _ _).bind fun _ => h.arguments _ _

theorem expectedProps_succ (h : Rules env depth) (want : Nat) (props : List Nat) :
    Runs env (Goes env) (Check.expectedProps env (depth + 1) want props) := by
  cases props with
  | nil =>
    unfold Check.expectedProps
    exact .pure true
  | cons p rest =>
    unfold Check.expectedProps
    dsimp only
    split
    · rename_i hf
      refine Runs.get.bind fun _ => ?_
      split
      · refine (runs_typeText _).bind fun _ => (runs_report _ _).bind fun _ => ?_
        exact (h.expr _ _).bind fun _ => (h.expectedProps _ _).bind fun _ => .pure false
      · refine (h.expr _ _).bind fun got => (runs_record (.of_form hf rfl) _).bind fun _ => ?_
        refine (runs_assignable _ _).bind fun _ => .ite ((runs_reportMismatch _ _ _).bind fun _ => ?_) ?_ <;>
          exact (h.expectedProps _ _).bind fun _ => .pure _
    · exact h.expectedProps _ _

theorem inferredProps_succ (h : Rules env depth) (props : List Nat) :
    Runs env (Goes env) (Check.inferredProps env (depth + 1) props) := by
  cases props with
  | nil =>
    unfold Check.inferredProps
    exact .pure _
  | cons p rest =>
    unfold Check.inferredProps
    dsimp only
    split
    · rename_i hf
      refine (h.expr _ _).bind fun type => .ite (.pure _) ((runs_resolved? type).bind fun _ => .ite ?_ ?_)
      · exact (runs_report _ _).bind fun _ => .pure _
      · refine (runs_record (.of_form hf rfl) type).bind fun _ => (h.inferredProps _).bind fun _ => ?_
        split <;> exact .pure _
    · exact h.inferredProps _

/-- The type of an operation, once those of the operands are known. -/
theorem runs_binaryType (id : Nat) (op : BinaryOp) (x y : Nat) : Runs env (Goes env) (do
    let tx ← resolved? x
    if op.isEquality then
      if !(← assignable x y) && !(← assignable y x) then
        report (env.tree.span id) (.incomparable (← typeText x) (← typeText y))
        return 0
      if tx = some .string then
        report (env.tree.span id) .stringComparison
        return 0
      return Ty.boolId
    if !(tx.elim false Ty.isNumeric) || !((← get).types.identical x y) then
      report (env.tree.span id) (.nonNumericOperands op.token.name (← typeText x) (← typeText y))
      return 0
    return if op.isArithmetic then x else Ty.boolId) := by
  have hfail (p : String → String → Problem) : Runs env (Goes env) (do
      report (env.tree.span id) (p (← typeText x) (← typeText y))
      return 0) :=
    (runs_typeText x).bind fun _ => (runs_typeText y).bind fun _ => (runs_report _ _).bind fun _ => .pure 0
  refine (runs_resolved? x).bind fun tx => .ite ?_ (Runs.get.bind fun _ => .ite (hfail _) (.pure _))
  refine (runs_assignable x y).bind fun _ => (runs_assignable y x).bind fun _ => .ite (hfail .incomparable) ?_
  exact .ite ((runs_report _ _).bind fun _ => .pure 0) (.pure _)

theorem binary_succ (h : Rules env depth) (id : Nat) (op : BinaryOp) (x y want : Nat) :
    Runs env (Goes env) (Check.binary env (depth + 1) id op x y want) := by
  unfold Check.binary
  dsimp only
  refine (h.expr _ _).bind fun x => .ite ((h.expr _ _).bind fun _ => .pure 0) ((h.expr _ _).bind fun y => ?_)
  refine .ite (.pure 0) ((runs_resolved? y).bind fun _ => ?_)
  split
  · exact (h.expr _ _).bind fun x => runs_binaryType id op x y
  · exact (Runs.pure x).bind fun x => runs_binaryType id op x y

theorem stmt_succ (h : Rules env depth) (id : Nat) : Runs env (Goes env) (Check.stmt env (depth + 1) id) := by
  have hdecl {f : Form} (hf : env.tree.form? id = some f) (hkind : SymbolKind.ofForm f = .function ∨
      SymbolKind.ofForm f = .foreign) : DeclaresFunction env.tree id := by
    unfold DeclaresFunction symbolKind
    rw [hf]
    exact hkind
  unfold Check.stmt
  dsimp only
  split <;> rename_i hf
  · exact (h.runs_signature (hdecl hf (.inr rfl))).discard
  · exact (h.runs_signature (hdecl hf (.inl rfl))).bind fun _ => (h.runs_body _ _).discard
  · have hid : Apart env id := .of_form hf rfl
    refine (runs_resolveType? _).bind fun want => (h.expr _ _).bind fun got => .ite ?_ ?_
    · exact (runs_expect _ _ _).bind fun _ => (runs_record hid _).discard
    · exact (runs_resolved? _).bind fun _ => .ite (runs_report _ _) (runs_record hid _).discard
  · exact h.returnStmt _ _
  · exact (h.boolean _).bind fun _ => (h.stmt _).bind fun _ => .forM fun _ _ => h.stmt _
  · exact (h.boolean _).bind fun _ => h.stmt _
  · exact .forM fun _ _ => h.stmt _
  · exact (h.expr _ _).discard
  · exact .pure ()

theorem returnStmt_succ (h : Rules env depth) (id : Nat) (value : Option Nat) :
    Runs env (Goes env) (Check.returnStmt env (depth + 1) id value) := by
  unfold Check.returnStmt
  dsimp only
  refine Runs.get.bind fun _ => ?_
  split
  · exact runs_report _ _
  · split
    · refine .ite ((runs_typeText _).bind fun _ => (runs_report _ _).bind fun _ => ?_) ?_ <;>
        exact .ite (runs_modifyFrame _) (.pure ())
    · refine .ite ((h.expr _ _).bind fun _ => runs_expect _ _ _) ((h.expr _ _).bind fun _ => ?_)
      exact .ite (runs_modifyFrame _) (runs_expect _ _ _)

/-- The type of a function, once those of its parameters and of its result are known. A function whose result
cannot be inferred because its body is being checked gets none. -/
theorem leads_recordSignature (hdecl : DeclaresFunction env.tree id) (hnone : s.signatures.lookup id = none)
    {params : List Nat} (hlength : params.length = ((env.tree.form? id).getD .null).params.length) {result : Nat}
    (hbusy : IsInferred env.tree id → id ∈ s.busy → result = 0) : Leads env (Goes env) s (do
      if result = 0 && (((env.tree.form? id).getD .null).type?.isSome || (← get).busy.contains id) then return 0
      let type ← internFunc params result
      modify fun s => { s with signatures := (id, type) :: s.signatures }
      record id type) fun s' type => type ≠ 0 → s'.signatures.lookup id = some type := by
  refine leads_get.bind ?_
  rintro _ _ - ⟨rfl, rfl⟩
  refine .ite (fun _ => .pure fun hne => absurd rfl hne) fun hgo => ?_
  refine (leads_sign hdecl hnone (fun hinferred hmem => hgo ?_) hlength result).imp fun _ _ hfound _ => hfound
  simp [hbusy hinferred hmem, hmem]

theorem signature_succ (h : Rules env depth) (hlinked : env.tree.Linked) (s : State) (id : Nat)
    (hdecl : DeclaresFunction env.tree id) : Leads env (Goes env) s
    (Check.signature env (depth + 1) id) fun s' type =>
      type ≠ 0 → s'.signatures.lookup id = some type := by
  have hparams : ∀ p ∈ ((env.tree.form? id).getD .null).params, ∃ name type, env.tree.form? p =
    some (.param name type) := by
    obtain ⟨f, hf, -⟩ := hdecl.form
    rw [hf]
    exact fun p hp => hlinked.param_part hf (mem_parts_of_params hp)
  have hthen (s s' s'' : State) (hsame : Same s s') (hgoes : Goes env s' s'') : Goes env s s'' :=
    hsame.goes.trans hgoes
  unfold Check.signature
  refine leads_get.bind ?_
  rintro _ _ - ⟨rfl, rfl⟩
  dsimp only
  split
  · rename_i type hfound
    exact .pure fun _ => hfound
  rename_i hnone
  have htypes : Leads env Same s (paramTypes env none ((env.tree.form? id).getD .null).params 0) fun _ r =>
      ∀ types, r = some types → types.length = ((env.tree.form? id).getD .null).params.length :=
    leads_paramTypes none hparams 0
  refine htypes.seq hthen fun s₁ params hsame hlength => ?_
  split
  · exact .pure fun hne => absurd rfl hne
  rename_i params
  rw [← hsame.signatures] at hnone
  cases hwritten : ((env.tree.form? id).getD .null).type? with
  | some written =>
    have hresult : Leads env Same s₁ (resolveType env written) fun _ _ => True := runs_resolveType written s₁
    refine hresult.seq hthen fun s₂ result hsame' _ => ?_
    rw [← hwritten]
    exact leads_recordSignature hdecl (hsame'.signatures ▸ hnone) (hlength params rfl) fun hinferred =>
      absurd (hwritten.symm.trans hinferred) (Option.some_ne_none _)
  | none =>
    refine leads_get.bind ?_
    rintro _ _ - ⟨rfl, rfl⟩
    rw [← hwritten]
    split
    · -- the body is being checked, and asks for the type of its own function
      rename_i hcontains
      have hreport : Leads env Same s₁ (report (env.tree.span id)
          (.recursiveWithoutResult ((env.tree.form? id).getD .null).name)) fun _ _ => True := runs_report _ _ s₁
      refine hreport.seq hthen fun s₂ _ hsame' _ => ?_
      exact leads_recordSignature hdecl (hsame'.signatures ▸ hnone) (hlength params rfl) fun _ _ => rfl
    · rename_i hcontains
      refine (h.body s₁ id 0).bind fun s₂ result hgoes hwaiting => ?_
      refine leads_recordSignature hdecl (hwaiting hwritten hnone) (hlength params rfl) fun _ hmem => ?_
      rw [hgoes.busy] at hmem
      exact absurd (List.contains_iff_mem.2 hmem) hcontains

/-- The body of a function is checked in a frame of its own, with which the function is left. -/
theorem leads_inFrame (h : Rules env depth) (s : State) (id inner result : Nat) : Leads env (GoesOut env id) s (do
    modify fun s => { s with frames := { result } :: s.frames }
    match env.tree.form? inner with
    | some (.block stmts) => stmts.forM (Check.stmt env depth)
    | _ =>
      let got ← Check.expr env depth inner result
      if result = 0 then modifyFrame ({ · with inferred := got })
      else if result ≠ Ty.voidId then expect (env.tree.span inner) result got
    let inferred := ((← get).frames.head?.map (·.inferred)).getD 0
    let result := if result ≠ 0 then result else if inferred ≠ 0 then inferred else Ty.voidId
    modify fun s => { s with frames := s.frames.tail, busy := s.busy.erase id, results := (id,
      result) :: s.results }
    return result) fun _ _ => True := by
  have hleave (s : State) : Leads env (GoesOut env id) s (do
      let inferred := ((← get).frames.head?.map (·.inferred)).getD 0
      let result := if result ≠ 0 then result else if inferred ≠ 0 then inferred else Ty.voidId
      modify fun s => { s with frames := s.frames.tail, busy := s.busy.erase id, results := (id,
        result) :: s.results }
      return result) fun _ _ => True :=
    ⟨.silent rfl rfl rfl rfl rfl, ⟨fun _ _ hd => hd, rfl, fun _ _ _ hnone => hnone⟩, trivial⟩
  have hthen (s s' s'' : State) : Goes env s s' → GoesOut env id s' s'' → GoesOut env id s s'' := Goes.trans_out
  have hbefore {α : Type} {act : CheckM α} {f : α → CheckM Nat} (s : State) (hact : Runs env (Goes env) act)
      (hf : ∀ s a, Leads env (GoesOut env id) s (f a) fun _ _ => True) :
      Leads env (GoesOut env id) s (act >>= f) fun _ _ => True := (hact s).seq hthen fun s' a _ _ => hf s' a
  have hframe : Runs env (Goes env) (modify fun s => { s with frames := { result } :: s.frames }) := fun s =>
    ⟨.silent rfl rfl rfl rfl rfl, Loose.of_same ⟨rfl, rfl⟩, trivial⟩
  refine hbefore s hframe fun s₁ _ => ?_
  dsimp only
  split
  · exact hbefore s₁ (.forM fun _ _ => h.stmt _) fun s₂ _ => hleave s₂
  · refine hbefore s₁ (h.expr _ _) fun s₂ got => .ite (fun _ => ?_) fun _ => .ite (fun _ => ?_) fun _ => hleave s₂
    · exact hbefore s₂ (runs_modifyFrame _) fun s₃ _ => hleave s₃
    · exact hbefore s₂ (runs_expect _ _ _) fun s₃ _ => hleave s₃

theorem body_succ (h : Rules env depth) (s : State) (id expected : Nat) :
    Leads env (Goes env) s (Check.body env (depth + 1) id expected) fun s' _ =>
      IsInferred env.tree id → s.signatures.lookup id = none → s'.signatures.lookup id = none := by
  unfold Check.body
  refine leads_get.bind ?_
  rintro _ _ - ⟨rfl, rfl⟩
  dsimp only
  refine .ite (fun _ => ⟨.refl, Loose.of_same ⟨rfl, rfl⟩, fun _ hnone => hnone⟩) fun _ => leads_enter ?_
  have hthen (s s' s'' : State) : Goes env s s' → GoesOut env id s' s'' → GoesOut env id s s'' := Goes.trans_out
  split
  · exact (runs_resolveType _ _).seq hthen fun s₁ result _ _ => leads_inFrame h s₁ id _ result
  · exact (Runs.pure expected _).seq hthen fun s₁ result _ _ => leads_inFrame h s₁ id _ result

theorem succ (h : Rules env depth) (hlinked : env.tree.Linked) : Rules env (depth + 1) :=
  ⟨h.expr_succ, h.exprType_succ hlinked, h.boolean_succ, h.arguments_succ, h.expectedProps_succ,
    h.inferredProps_succ,
    h.binary_succ, h.stmt_succ, h.returnStmt_succ, h.signature_succ hlinked, h.body_succ⟩

/-- The rules hold down to any depth. -/
theorem all (hlinked : env.tree.Linked) (depth : Nat) : Rules env depth := by
  induction depth with
  | zero => exact .zero env
  | succ depth ih => exact ih.succ hlinked

end Rules

/-! ### Programs -/

/-- Checks the aliases and the statements of a program. -/
def program (env : Env) : CheckM Unit := do
  declareAliases env
  (env.tree.children env.tree.root).forM (stmt env (depthFor env.tree))

/-- Checking a program goes by steps. -/
theorem steps_program (hlinked : env.tree.Linked) : Steps env {} ((program env).run {}).2 := by
  have hleads : Leads env (Goes env) {} (program env) fun _ _ => True :=
    (leads_declareAliases rfl).seq (fun _ _ _ h h' => h.goes.trans h') fun s _ _ _ =>
      Runs.forM (fun id _ => (Rules.all hlinked (depthFor env.tree)).stmt id) s
  exact hleads.steps

/-- What holds of the state that checking starts from, and is kept by every step, holds of the one that it ends
with. -/
theorem program_induction {P : State → Prop} (hlinked : env.tree.Linked) (hstart : P {})
    (hstep : ∀ s s', Step env s s' → P s → P s') : P ((program env).run {}).2 :=
  (steps_program hlinked).keep hstep hstart

/-! ### The types of functions have their parameters -/

variable {s' : State} {type : Nat}

theorem IsFuncType.mono {types types' : Interner} {count : Nat} (h : IsFuncType types count type)
    (ht : types.Grows types') : IsFuncType types' count type := by
  obtain ⟨params, result, hlookup, hlength⟩ := h
  exact ⟨params, result, ht _ _ hlookup nofun, hlength⟩

/-- The type that is recorded for a function, if one is, is a function type with as many parameters. -/
def Suited (env : Env) (s : State) : Prop :=
  ∀ id type, s.info[id]? = some type → ∀ f, env.tree.form? id = some f → f.isFunction = true →
    IsFuncType s.types f.params.length type

theorem Suited.grow (h : Suited env s) (hinfo : s'.info = s.info) (ht : s.types.Grows s'.types) : Suited env s' :=
  fun id type hget f hf hfun => (h id type (hinfo ▸ hget) f hf hfun).mono ht

/-- A type is recorded that suits its node. -/
theorem Suited.record (h : Suited env s) (hinfo : s'.info = s.info.insert id type) (htypes : s'.types = s.types)
    (hsuits : ∀ f, env.tree.form? id = some f → f.isFunction = true → IsFuncType s.types f.params.length type) :
    Suited env s' := by
  intro id' type' hget f hf hfun
  rw [hinfo, Std.TreeMap.getElem?_insert] at hget
  rw [htypes]
  split at hget
  · rename_i heq
    obtain rfl := Nat.compare_eq_eq.1 heq
    obtain rfl := Option.some.inj hget
    exact hsuits f hf hfun
  · exact h id' type' hget f hf hfun

theorem Fits.suits (h : Fits env s id type) {f : Form} (hf : env.tree.form? id = some f)
    (hfun : f.isFunction = true) :
    IsFuncType s.types f.params.length type := by
  cases h with
  | apart hapart =>
    have hnot := hapart.isFunction
    rw [Tree.isFunction, hf] at hnot
    cases hfun.symm.trans hnot
  | use huse _ =>
    obtain ⟨name, hname⟩ := huse.isName
    obtain rfl := Option.some.inj (hf.symm.trans hname)
    cases hfun
  | arrow harrow hfunc =>
    obtain rfl := Option.some.inj (hf.symm.trans harrow)
    exact hfunc

theorem Suited.step (h : Step env s s') (hs : Suited env s) : Suited env s' := by
  cases h with
  | silent htypes hinfo => exact hs.grow hinfo (htypes ▸ .refl _)
  | report => exact hs.grow rfl (.refl _)
  | intern t => exact hs.grow rfl (Interner.grows_intern s.types t)
  | newAlias d => exact hs.grow rfl (Interner.grows_newAlias s.types _)
  | setAlias d target => exact hs.grow rfl (Interner.grows_setAlias s.types _ target)
  | record id type hfits => exact hs.record rfl rfl fun f hf hfun => hfits.suits hf hfun
  | sign d type _ _ hfunc =>
    refine hs.record rfl rfl fun f hf _ => ?_
    rwa [hf] at hfunc

/-- What is recorded for a function, if anything is, is a function type with a parameter for each of its own. -/
theorem resolved?_check {tree : Tree} (table : Table) (hlinked : tree.Linked) {id : Nat} {f : Form}
    (hf : tree.form? id = some f) (hfun : f.isFunction = true) : (check tree table).typeOf id = 0 ∨ ∃ params result,
      (check tree table).types.resolved? ((check tree table).typeOf id) = some (.func params result) ∧
        params.length = f.params.length := by
  have hsuited : Suited ⟨tree, table⟩ ((program ⟨tree, table⟩).run {}).2 :=
    program_induction hlinked (fun _ _ h => by simp at h) fun _ _ => Suited.step
  unfold Checked.typeOf
  rw [Std.TreeMap.getD_eq_getD_getElem?]
  cases hinfo : (check tree table).info[id]? with
  | none => exact .inl rfl
  | some type =>
    obtain ⟨params, result, hlookup, hlength⟩ := hsuited id type hinfo f hf hfun
    exact .inr ⟨params, result, Interner.resolved?_of_lookup? hlookup nofun, hlength⟩

end TypedScript.Check

/-! ## What checking leaves behind -/

namespace TypedScript.Check

open TypedScript.Ast TypedScript.Binding TypedScript.Ty

variable {env : Env} {tree : Tree} {s s' : State} {id d type : Nat}

/-! ### Reports -/

theorem Step.errors (h : Step env s s') (hs : ∀ e ∈ s.diagnostics, e.isError = true) :
    ∀ e ∈ s'.diagnostics, e.isError = true := by
  cases h with
  | silent _ _ _ _ hdiagnostics => exact hdiagnostics ▸ hs
  | report span p =>
    intro e he
    rcases List.mem_append.1 he with he | he
    · exact hs e he
    · obtain rfl := List.mem_singleton.1 he
      rfl
  | _ => exact hs

/-- Everything that checking reports is an error. -/
theorem isError_of_mem_check (hlinked : tree.Linked) (table : Table) {e : Diagnostic}
    (he : e ∈ (check tree table).diagnostics) : e.isError = true := by
  have herrors : ∀ e ∈ ((program ⟨tree, table⟩).run {}).2.diagnostics, e.isError = true :=
    program_induction hlinked (fun _ h => absurd h List.not_mem_nil) fun _ _ => Step.errors
  exact herrors e he

/-! ### Functions by name -/

/-- What is recorded for functions that are declared by name, and for uses of their names, is the type that was
noted. -/
structure Consistent (env : Env) (s : State) : Prop where
  keys : ∀ d type, s.signatures.lookup d = some type → DeclaresFunction env.tree d
  declared : ∀ d type, s.signatures.lookup d = some type → s.info[d]? = some type
  used : ∀ id d type, UsesFunction env id d → s.info[id]? = some type → s.signatures.lookup d = some type

theorem Consistent.congr (h : Consistent env s) (hinfo : s'.info = s.info)
    (hsignatures : s'.signatures = s.signatures) :
    Consistent env s' where
  keys := hsignatures ▸ h.keys
  declared := hsignatures ▸ hinfo ▸ h.declared
  used := hsignatures ▸ hinfo ▸ h.used

/-- What declares a function is no name. -/
theorem DeclaresFunction.not_name (h : DeclaresFunction env.tree d) {name : String} :
    env.tree.form? d ≠ some (.ident name) := by
  intro hname
  obtain ⟨f, hf, hform⟩ := h.form
  obtain rfl := Option.some.inj (hname.symm.trans hf)
  rcases hform with ⟨_, _, _, _, heq⟩ | ⟨_, _, _, heq⟩ <;> exact nomatch heq

/-- A use of a function does not declare one. -/
theorem UsesFunction.not_declares (h : UsesFunction env id d) : ¬ DeclaresFunction env.tree id := fun hdecl =>
  h.isName.elim fun _ hname => hdecl.not_name hname

theorem Fits.not_declares (h : Fits env s id type) : ¬ DeclaresFunction env.tree id := by
  cases h with
  | apart h => exact h.declares
  | use h _ => exact h.not_declares
  | arrow harrow _ =>
    intro hdecl
    obtain ⟨f, hf, hform⟩ := hdecl.form
    obtain rfl := Option.some.inj (harrow.symm.trans hf)
    rcases hform with ⟨_, _, _, _, heq⟩ | ⟨_, _, _, heq⟩ <;> exact nomatch heq

/-- What is recorded for the use of a function is the type that was noted. -/
theorem Fits.noted (h : Fits env s id type) (huse : UsesFunction env id d) : s.signatures.lookup d = some type := by
  cases h with
  | apart h => exact absurd huse (h.uses d)
  | use h hnoted =>
    obtain rfl := Option.some.inj (huse.refers.symm.trans h.refers)
    exact hnoted
  | arrow harrow _ =>
    obtain ⟨name, hname⟩ := huse.isName
    exact nomatch hname.symm.trans harrow

theorem getElem?_insert_of_ne {info : Std.TreeMap Nat Nat} {id id' type : Nat} (h : id ≠ id') :
    (info.insert id type)[id']? = info[id']? := by
  rw [Std.TreeMap.getElem?_insert, if_neg (by simpa [Nat.compare_eq_eq] using h)]

theorem Consistent.step (h : Step env s s') (hs : Consistent env s) : Consistent env s' := by
  cases h with
  | silent _ hinfo _ hsignatures => exact hs.congr hinfo hsignatures
  | record id type hfits =>
    refine ⟨hs.keys, fun d type' hd => ?_, fun id' d type' huse hget => ?_⟩
    · have hne : id ≠ d := fun heq => hfits.not_declares (heq ▸ hs.keys d type' hd)
      exact (getElem?_insert_of_ne hne).trans (hs.declared d type' hd)
    · by_cases heq : id = id'
      · subst heq
        obtain rfl : type = type' := by simpa using hget
        exact hfits.noted huse
      · exact hs.used id' d type' huse ((getElem?_insert_of_ne heq).symm.trans hget)
  | sign d type hdecl hnone _ =>
    refine ⟨fun d' type' hd' => ?_, fun d' type' hd' => ?_, fun id' d' type' huse hget => ?_⟩
    · by_cases heq : d' = d
      · exact heq ▸ hdecl
      · exact hs.keys d' type' (by simpa [List.lookup_cons, beq_false_of_ne heq] using hd')
    · by_cases heq : d = d'
      · subst heq
        obtain rfl : type = type' := by simpa using hd'
        simp
      · refine (getElem?_insert_of_ne heq).trans (hs.declared d' type' ?_)
        simpa [List.lookup_cons, beq_false_of_ne (Ne.symm heq)] using hd'
    · have hne : d ≠ id' := fun heq => huse.not_declares (heq ▸ hdecl)
      have hold := hs.used id' d' type' huse ((getElem?_insert_of_ne hne).symm.trans hget)
      have hdiff : d' ≠ d := by
        rintro rfl
        exact nomatch hnone.symm.trans hold
      simpa [List.lookup_cons, beq_false_of_ne hdiff] using hold
  | _ => exact hs.congr rfl rfl

theorem consistent_program (hlinked : env.tree.Linked) : Consistent env ((program env).run {}).2 := by
  refine program_induction hlinked ⟨nofun, nofun, fun id d type _ hget => ?_⟩ fun _ _ => Consistent.step
  rw [Std.TreeMap.getElem?_emptyc] at hget
  exact nomatch hget

/-- If the use of a function has a type, it is the one that its declaration has. -/
theorem typeOf_use (hlinked : tree.Linked) {table : Table} (huse : UsesFunction ⟨tree, table⟩ id d)
    (hne : (check tree table).typeOf id ≠ 0) : (check tree table).typeOf id = (check tree table).typeOf d := by
  have hs : Consistent ⟨tree, table⟩ ((program ⟨tree, table⟩).run {}).2 := consistent_program hlinked
  unfold Checked.typeOf at hne ⊢
  rw [Std.TreeMap.getD_eq_getD_getElem?] at hne ⊢
  rw [Std.TreeMap.getD_eq_getD_getElem?]
  cases hinfo : (check tree table).info[id]? with
  | none => exact absurd (by rw [hinfo]; rfl) hne
  | some type =>
    rw [show (check tree table).info[d]? = some type from hs.declared d type (hs.used id d type huse hinfo)]

/-! ### Names without a declaration -/

/-- No type is recorded for a name that is not declared. -/
def Unrecorded (env : Env) (s : State) : Prop :=
  ∀ id name, env.tree.form? id = some (.ident name) → env.table.decl? id = none → s.info[id]? = none

/-- A type is recorded for a name only if the name is declared. -/
theorem Fits.bound (h : Fits env s id type) {name : String} (hname : env.tree.form? id = some (.ident name)) :
    env.table.decl? id ≠ none := by
  cases h with
  | apart h => exact h.bound name hname
  | use h _ => simp [h.refers]
  | arrow harrow _ => exact nomatch hname.symm.trans harrow

theorem Unrecorded.step (h : Step env s s') (hs : Unrecorded env s) : Unrecorded env s' := by
  cases h with
  | silent _ hinfo =>
    intro x name hname hnone
    rw [hinfo]
    exact hs x name hname hnone
  | record id type hfits =>
    intro x name hname hnone
    have hne : id ≠ x := by
      rintro rfl
      exact hfits.bound hname hnone
    exact (getElem?_insert_of_ne hne).trans (hs x name hname hnone)
  | sign d type hdecl _ _ =>
    intro x name hname hnone
    have hne : d ≠ x := by
      rintro rfl
      exact hdecl.not_name hname
    exact (getElem?_insert_of_ne hne).trans (hs x name hname hnone)
  | _ => exact hs

/-- A name that is not declared has no type. -/
theorem typeOf_unbound (hlinked : tree.Linked) {table : Table} {name : String}
    (hname : tree.form? id = some (.ident name)) (hnone : table.decl? id = none) :
    (check tree table).typeOf id = 0 := by
  have hs : Unrecorded ⟨tree, table⟩ ((program ⟨tree, table⟩).run {}).2 :=
    program_induction hlinked (fun _ _ _ _ => Std.TreeMap.getElem?_emptyc) fun _ _ => Unrecorded.step
  unfold Checked.typeOf
  rw [Std.TreeMap.getD_eq_getD_getElem?]
  rw [show (check tree table).info[id]? = none from hs id name hname hnone]
  rfl

/-! ### Aliases -/

/-- The aliases that were made are the first of those that are declared. -/
structure Named (env : Env) (s : State) : Prop where
  names : s.types.aliasNames = (s.aliases.map fun p => env.tree.name p.1).reverse
  declared : (s.aliases.map (·.1)).reverse <+: aliasDecls env.tree

theorem Named.congr (h : Named env s) (htypes : s'.types.aliasNames = s.types.aliasNames)
    (haliases : s'.aliases = s.aliases) :
    Named env s' := ⟨by rw [htypes, haliases, h.names], haliases ▸ h.declared⟩

theorem Named.step (h : Step env s s') (hs : Named env s) : Named env s' := by
  cases h with
  | silent htypes _ haliases => exact hs.congr (by rw [htypes]) haliases
  | intern t ht => exact hs.congr (Interner.aliasNames_intern s.types ht) rfl
  | newAlias d rest hrest =>
    refine ⟨?_, rest, ?_⟩
    · dsimp only
      rw [Interner.aliasNames_newAlias, hs.names, List.map_cons, List.reverse_cons]
    · rw [hrest, List.map_cons, List.reverse_cons, List.append_assoc]
      rfl
  | setAlias d target => exact hs.congr (Interner.aliasNames_setAlias s.types _ target) rfl
  | _ => exact hs.congr rfl rfl

/-- The names of the aliases are those of the first declarations of aliases. -/
theorem aliasNames_check (hlinked : tree.Linked) (table : Table) :
    (check tree table).types.aliasNames <+: (aliasDecls tree).map tree.name := by
  have hnamed : Named ⟨tree, table⟩ ((program ⟨tree, table⟩).run {}).2 :=
    program_induction hlinked ⟨rfl, List.nil_prefix⟩ fun _ _ => Named.step
  have hnames := hnamed.declared.map tree.name
  rw [List.map_reverse, List.map_map] at hnames
  exact hnamed.names ▸ hnames

end TypedScript.Check
