import TypedScript.Proofs.Ast.Names
import TypedScript.Proofs.Check.Statements

/-!
# What is accepted is well typed

If nothing is reported for a file in which functions without a written result are used behind their declarations
and no variable is used in its own initializer, every expression and every declared value has a type, and every
node obeys the rule of its form. Without these conditions it need not be so: a function whose result is inferred
is checked where it is first used, which may be before what it uses has a type.

* `InOrder`: the conditions.
* `scene_resolve`: what parsing and binding say of a tree in which everything is in order.
* `check_complete`: what is accepted is well typed.
-/

namespace TypedScript.Check

open TypedScript.Ast TypedScript.Ast.Tree TypedScript.Binding TypedScript.Ty Typing

variable {t : Tree} {file : Source.File} {table : Table} {u d c : Nat}

/-! ### The order of declarations and uses -/

/-- Functions without a written result are used behind the start of their declarations only, and variables are not
used in their own initializers. -/
structure InOrder (t : Tree) (table : Table) : Prop where
  functions : ∀ u ∈ t.reachedOutsideTypes, ∀ d, table.decl? u = some d → symbolKind t d = .function →
    IsInferred t d →
    (t.span d).start < (t.span u).start
  lets : ∀ u ∈ t.reachedOutsideTypes, ∀ d, table.decl? u = some d → IsVariable t d → d ∉ t.ancestors u

instance (t : Tree) (d : Nat) : Decidable (IsVariable t d) :=
  decidable_of_iff (symbolKind t d = .letBinding ∨ symbolKind t d = .constBinding) <| by
    unfold IsVariable symbolKind
    cases t.form? d with
    | none => simp
    | some f => cases f <;> simp [SymbolKind.ofForm]

instance (t : Tree) (d : Nat) : Decidable (IsInferred t d) := inferInstanceAs (Decidable (_ = none))

instance (t : Tree) (table : Table) : Decidable (InOrder t table) :=
  decidable_of_iff (∀ u ∈ t.reachedOutsideTypes, ∀ d ∈ (table.decl? u).toList,
    (symbolKind t d = .function → IsInferred t d → (t.span d).start < (t.span u).start) ∧
    (IsVariable t d → d ∉ t.ancestors u))
    ⟨fun h => ⟨fun u hu d hd => (h u hu d (Option.mem_toList.2 hd)).1,
    fun u hu d hd => (h u hu d (Option.mem_toList.2 hd)).2⟩,
      fun h u hu d hd => ⟨h.functions u hu d (Option.mem_toList.1 hd), h.lets u hu d (Option.mem_toList.1 hd)⟩⟩

/-- What starts before a name is not listed behind it. -/
theorem not_sublist_of_start_lt (h : t.Linked) (hneat : t.IsNeat file) {name : String}
    (hu : t.form? u = some (.ident name)) (hlt : (t.span d).start < (t.span u).start) :
    ¬ [u, d].Sublist t.reachedOutsideTypes := by
  intro hsub
  have hordered : t.reachedOutsideTypes.Pairwise _ := pairwise_walk h hneat t.root
  have hsolid : (t.span u).start < (t.span u).stop := (hneat.node hu).start_lt nofun
  rcases (List.pairwise_cons.1 (hordered.sublist hsub)).1 d (List.mem_singleton_self d) with ⟨-, hdown⟩ | hbehind
  · have hinside := (hneat.down hdown).1
    omega
  · omega

/-- A parameter starts before every name in the function. -/
theorem param_start_lt (h : t.Linked) (hneat : t.IsNeat file) {f : Form} (hc : t.form? c = some f) {body : Nat}
    (hb : f.body? = some body) (hd : d ∈ f.params) {name : String} (hu : t.form? u = some (.ident name))
    (hbelow : u ∈ listing t c) : (t.span d).start < (t.span u).start := by
  rw [listing_eq h hc, Form.isType_of_isFunction (isFunction_of_body? hb), Form.children_of_body? hb] at hbelow
  rcases List.mem_cons.1 hbelow with rfl | hbelow
  · obtain rfl := Option.some.inj (hc.symm.trans hu)
    cases hb
  obtain ⟨e, he, hmem : u ∈ listing t e⟩ := List.mem_flatMap.1 hbelow
  rcases List.mem_append.1 he with he | he
  · -- there are no names in a signature
    have hnone : ∃ place, (place, e) ∈ f.parts ∧ (place = .type ∨ place = .param) := by
      rcases List.mem_append.1 he with he | he
      · exact ⟨.param, mem_parts_of_params he, .inr rfl⟩
      · exact ⟨.type, mem_parts_of_type? (Option.mem_toList.1 he), .inl rfl⟩
    obtain ⟨place, hp, hplace⟩ := hnone
    rcases mem_listing_of_signature h hc hp hplace u hmem with htype | ⟨_, _, hparam⟩
    · simp [Tree.isType, hu, Form.isType] at htype
    · cases hu.symm.trans hparam
  · obtain rfl := List.mem_singleton.1 he
    have hordered := (hneat.node hc).ordered
    rw [Form.children_of_body? hb, List.pairwise_append] at hordered
    have hbefore : (t.span d).stop ≤ (t.span e).start :=
      hordered.2.2 d (List.mem_append_left _ hd) e (List.mem_singleton_self e)
    have hsolid : (t.span d).start < (t.span d).stop := by
      refine (hneat.node hc).solid d ?_
      rw [Form.children_of_body? hb]
      simp [hd]
    have hinside := (hneat.down (mem_walk.1 hmem)).1
    omega

/-- What is listed below a node has the node around it. -/
theorem mem_ancestors_of_mem_listing (h : t.Linked) (hd : d ∈ t.reached) (hu : u ∈ listing t d) : u = d ∨
    d ∈ t.ancestors u := by
  have hplace := (mem_walk.1 hu).induct (P := fun x => x ∈ t.reached ∧ (x = d ∨ d ∈ t.ancestors x))
    (fun id c hid _ hc => by
    refine ⟨h.reached_part hid.1 hc, .inr ?_⟩
    rw [h.ancestors_part hid.1 hc]
    rcases hid.2 with rfl | hmem
    · exact List.mem_cons_self
    · exact List.mem_cons_of_mem _ hmem) ⟨hd, .inl rfl⟩
  exact hplace.2

/-! ### The scene -/

section

variable {maxErrors : Nat}

/-- A value is used behind the start of its declaration, apart from functions with a written result. -/
theorem start_lt_of_refersTo (h : t.Linked) (hneat : t.IsNeat file) (horder : InOrder t table)
    (hu : u ∈ t.reachedOutsideTypes) {name : String} (hf : t.form? u = some (.ident name))
    (hd : table.decl? u = some d) (hrefers : RefersTo t name u d) : (t.span d).start < (t.span u).start ∨
    DeclaresFunction t d ∧ ¬ IsInferred t d := by
  obtain ⟨inner, c, outer, hcs, howns, -⟩ := hrefers
  obtain ⟨hvalue, -, hvisible⟩ := (howns d).2 rfl
  obtain ⟨-, hdecl, -⟩ := mem_decls.1 hvalue.1
  have hc : c ∈ enclosing t u := by simp [hcs]
  have hbelow : u ∈ listing t c := mem_listing_of_mem_ancestors h hu (List.mem_filter.1 hc).1
  obtain ⟨f, hform, hdeclares⟩ := declares_of_isDeclaration hdecl
  cases f with
  | varDecl dname isConst type init => exact .inl (hvisible ⟨dname, isConst, type, init, hform⟩).1
  | param pname type =>
    cases (site_param h hvalue hform).2 with
    | hoisted hhoisted => simp [isHoisted, symbolKind, hform, SymbolKind.ofForm] at hhoisted
    | standing hvar => cases hform.symm.trans hvar
    | @param g hg hp hfun =>
      obtain ⟨body, hb⟩ : ∃ body, g.body? = some body := by cases g <;> simp_all [Form.isFunction, Form.body?]
      exact .inl (param_start_lt h hneat hg hb hp hf hbelow)
  | funcDecl fname params written body =>
    have hkind : symbolKind t d = .function := by simp [symbolKind, hform, SymbolKind.ofForm]
    by_cases hinferred : IsInferred t d
    · exact .inl (horder.functions u hu d hd hkind hinferred)
    · exact .inr ⟨.inl hkind, hinferred⟩
  | declareFunc fname params result =>
    have hkind : symbolKind t d = .foreign := by simp [symbolKind, hform, SymbolKind.ofForm]
    exact .inr ⟨.inr hkind, by simp [IsInferred, hform, Form.type?]⟩
  | typeAlias => simp [DeclaresValue, symbolKind, hform, SymbolKind.ofForm] at hvalue
  | _ => cases hdeclares

/-- What parsing and binding say of a tree in which everything is in order. -/
theorem scene_resolve (hnil : (resolve (parse file maxErrors).tree).diagnostics = [])
    (horder : InOrder (parse file maxErrors).tree (resolve (parse file maxErrors).tree).table) :
    Scene ⟨(parse file maxErrors).tree, (resolve (parse file maxErrors).tree).table⟩ := by
  have h := linked_parse file maxErrors
  have hneat : IsNeat (parse file maxErrors).tree file := neat_parse file maxErrors
  have hnamed (id : Nat) : '=' ∉ ((parse file maxErrors).tree.name id).toList := by
    unfold Tree.name
    cases hf : (parse file maxErrors).tree.form? id with
    | none => simp
    | some f => exact equals_notMem_name file maxErrors hf
  have hforest := forest_parse file maxErrors
  obtain ⟨hvalues, htypes⟩ := resolve_innermost file maxErrors hnil
  generalize (parse file maxErrors).tree = t at *
  have hrefers {u d : Nat} (hu : u ∈ t.reachedOutsideTypes) (hd : (resolve t).table.decl? u = some d) :
      ∃ name, t.form? u = some (.ident name) ∧ RefersTo t name u d := by
    obtain ⟨name, hf⟩ := exists_ident_of_decl? hd
    obtain ⟨d', hd', hrefers⟩ := hvalues u (reached_of_outside hu) name hf
    obtain rfl := Option.some.inj (hd.symm.trans hd')
    exact ⟨name, hf, hrefers⟩
  have hdeclared {u d : Nat} (hd : (resolve t).table.decl? u = some d) :
      d ∈ t.reachedOutsideTypes ∧ t.isDeclaration d = true ∧ symbolKind t d ≠ .type := by
    obtain ⟨c, ⟨hmem, hkind⟩, -⟩ := resolve_lexical h hd
    obtain ⟨hout, hdecl, -⟩ := mem_decls.1 hmem
    exact ⟨hout, hdecl, hkind⟩
  constructor
  case forest => exact hforest
  case linked => exact h
  case named => exact hnamed
  case nodup => exact nodup_reachedOutsideTypes h hneat
  case nodupAliases => exact (nodup_walk h hneat _).filter _
  case bound =>
    intro u hu name hf
    obtain ⟨d, hd, -⟩ := hvalues u (reached_of_outside hu) name hf
    simp [hd]
  case typeBound =>
    intro u hu name hf hprimitive
    have hname : isPrimitiveName name = false := by
      simpa [isPrimitiveName, primitive?, Array.findIdx?_eq_none_iff] using hprimitive
    obtain ⟨d, hd, -, c, -, -, howns, -⟩ := htypes u hu name hf hname
    obtain ⟨⟨hmem, hkind⟩, -⟩ := (howns d).2 rfl
    exact ⟨d, List.mem_filter.2 ⟨reached_of_outside (mem_decls.1 hmem).1, by simpa using hkind⟩, hd⟩
  case declared => exact fun u _ d hd => hdeclared hd
  case behind =>
    intro u d hd hsub
    have hu : u ∈ t.reachedOutsideTypes := hsub.subset List.mem_cons_self
    obtain ⟨name, hf, hrefers⟩ := hrefers hu hd
    exact (start_lt_of_refersTo h hneat horder hu hf hd hrefers).resolve_left
      fun hlt => not_sublist_of_start_lt h hneat hf hlt hsub
  case apart =>
    intro d hvar u hu hd
    obtain ⟨hout, -⟩ := hdeclared hd
    have huo : u ∈ t.reachedOutsideTypes := listing_trans hout hu
    rcases mem_ancestors_of_mem_listing h (reached_of_outside hout) hu with rfl | hmem
    · obtain ⟨name, hf, -⟩ := hrefers huo hd
      obtain ⟨name, isConst, type, init, hform⟩ := hvar
      exact nomatch hf.symm.trans hform
    · exact horder.lets u huo d hd hvar hmem

end

/-! ### What is accepted -/

/-- Every expression and every value that is declared has one of the types that there are, and every node outside
of types obeys the rule of its form. -/
structure WellTyped (env : Env) (Γ : Typing) : Prop where
  typed : ∀ id ∈ env.tree.reached, ∀ f, env.tree.form? id = some f →
    f.isExpression = true ∨ env.tree.isDeclaration id = true ∧ symbolKind env.tree id ≠ .type →
      ∃ τ, Γ.HasType id τ ∧ Γ.types.Has τ
  judged : ∀ id ∈ env.tree.reachedOutsideTypes, Judged env Γ id

/-- An expression that obeys its rule has a type. -/
theorem Typing.Judged.hasType_of_isExpression {env : Env} {Γ : Typing} {f : Form} (h : Judged env Γ u)
    (hf : env.tree.form? u = some f) (hexpr : f.isExpression = true) : ∃ τ, Γ.HasType u τ := by
  have hobeys := h f hf
  cases f with
  | number | null =>
    rcases hobeys with hτ | ⟨τ, -, hτ, -⟩
    · exact ⟨_, hτ⟩
    · exact ⟨τ, hτ⟩
  | string => exact ⟨stringId, hobeys⟩
  | bool => exact ⟨boolId, hobeys⟩
  | this => exact ⟨voidId, hobeys⟩
  | ident =>
    obtain ⟨d, τ, -, -, hτ⟩ := hobeys
    exact ⟨τ, hτ⟩
  | object =>
    obtain ⟨-, τ, fields, hτ, -⟩ := hobeys
    exact ⟨τ, hτ⟩
  | member =>
    obtain ⟨ο, τ, -, -, hτ⟩ := hobeys
    exact ⟨τ, hτ⟩
  | call =>
    obtain ⟨φ, σs, ρ, -, -, -, hρ⟩ := hobeys
    exact ⟨ρ, hρ⟩
  | unary op =>
    cases op with
    | negate =>
      obtain ⟨τ, t, -, -, -, hτ⟩ := hobeys
      exact ⟨τ, hτ⟩
    | not => exact ⟨boolId, hobeys.2⟩
  | binary op x y =>
    by_cases hlogical : op.isLogical = true
    · simp only [Obeys, hlogical, if_true] at hobeys
      exact ⟨_, hobeys.2.2⟩
    · simp only [Obeys, hlogical] at hobeys
      obtain ⟨α, β, t, -, -, -, hop⟩ := hobeys
      by_cases heq : op.isEquality = true
      · simp only [heq, if_true] at hop
        exact ⟨_, hop.2.2⟩
      · simp only [heq] at hop
        exact ⟨_, hop.2.2⟩
  | assign =>
    obtain ⟨⟨τ, -, -, hτ⟩, -⟩ := hobeys
    exact ⟨τ, hτ⟩
  | arrowFunc =>
    obtain ⟨ρ, ⟨τ, σs, hτ, -⟩, -⟩ := hobeys
    exact ⟨τ, hτ⟩
  | _ => cases hexpr

/-- There are no expressions and no declarations in types. -/
theorem outside_of_reached (h : t.Linked) (hu : u ∈ t.reached) {f : Form} (hf : t.form? u = some f)
    (hform : f.isExpression = true ∨ t.isDeclaration u = true ∧ symbolKind t u ≠ .type) :
    u ∈ t.reachedOutsideTypes := by
  rcases hform with hexpr | ⟨hdecl, -⟩
  · rcases h.outside_or_inType hu with hout | htype | ⟨⟨name, type, hparam⟩, -⟩
    · exact hout
    · have htype : f.isType = true := by simpa [Tree.isType, hf] using htype
      cases f <;> simp_all [Form.isExpression, Form.isType]
    · obtain rfl := Option.some.inj (hf.symm.trans hparam)
      cases hexpr
  · exact h.outside_of_isDeclaration hu hdecl

/-- If all nodes obey their rules, a file is well typed. -/
theorem Orderly.wellTyped {env : Env} {s : State} (horderly : Orderly env s) (h : env.tree.Linked)
    (hjudged : ∀ v ∈ env.tree.reachedOutsideTypes, Judged env s.typing v) : WellTyped env s.typing where
  typed id hid f hf hform := by
    have hout := outside_of_reached h hid hf hform
    have htyped : ∃ τ, s.typing.HasType id τ := by
      rcases hform with hexpr | ⟨hdecl, hkind⟩
      · exact (hjudged id hout).hasType_of_isExpression hf hexpr
      · exact (hjudged id hout).hasType hdecl hkind
    obtain ⟨τ, hτ⟩ := htyped
    exact ⟨τ, hτ, horderly.has id τ hτ⟩
  judged := hjudged

/-- A tree has as many nodes outside of types as it has nodes, at most. -/
theorem length_reachedOutsideTypes_le (h : t.Linked) (hneat : t.IsNeat file) {f : Form}
    (hroot : t.form? t.root = some f) :
    t.reachedOutsideTypes.length ≤ t.size := by
  have hle : t.reachedOutsideTypes ⊆ List.range' 1 t.size := by
    intro x hx
    have hdown := mem_walk.1 hx
    have hroot := le_size_of_form? hroot
    have hpos := hdown.pos_last
    have hx := hdown.le
    rw [List.mem_range'_1]
    omega
  simpa using ((nodup_reachedOutsideTypes h hneat).subperm hle).length_le

/-- First the aliases are declared, and then all statements are visited. -/
theorem quiet_module {env : Env} (hscene : Scene env) {body : List Nat}
    (hroot : env.tree.form? env.tree.root = some (.module body))
    (hlength : env.tree.reachedOutsideTypes.length ≤ env.tree.size) : Quiet True {} (do
      declareAliases env
      body.forM (stmt env (depthFor env.tree))) fun s _ =>
        Orderly env s ∧ ∀ v ∈ env.tree.reachedOutsideTypes, Judged env s.typing v := by
  have hlist : env.tree.reachedOutsideTypes = env.tree.root :: body.flatMap (listing env.tree) :=
    listing_eq hscene.linked hroot
  have hstmts : ∀ c ∈ body, IsStmt env.tree c :=
    fun c hc => hscene.linked.statement_part hroot (by simp [Form.parts, hc])
  have hmodule (Γ : Typing) : Judged env Γ env.tree.root := by
    intro f hf
    obtain rfl := Option.some.inj (hf.symm.trans hroot)
    trivial
  rw [hlist] at hlength ⊢
  refine (quiet_declareAliases hscene).bind id fun s₁ _ => ?_
  refine (quiet_stmts hscene (Completes.all hscene _) body hstmts s₁).imp ?_ fun s₂ _ _ hexec =>
    ⟨hexec.1.visits.orderly, List.forall_mem_cons.2 ⟨hmodule _, hexec.1.visits.judged⟩⟩
  rintro ⟨-, horderly, hdone, hframes, hearly⟩
  have hprepared : Prepared env s₁ (body.flatMap (listing env.tree)) := by
    refine ⟨?_, horderly, fun u hu d hd => .inr ?_, fun v hv => ⟨by simp [hdone], hearly v⟩⟩
    · rw [hlist]
      exact List.sublist_cons_self _ _
    · obtain ⟨hout, hdecl, -⟩ := hscene.declared u (by rw [hlist]; exact List.mem_cons_of_mem _ hu) d hd
      rw [hlist] at hout
      refine (List.mem_cons.1 hout).resolve_left ?_
      rintro rfl
      simp [isDeclaration, hroot] at hdecl
  have hdepth : 3 * (body.flatMap (listing env.tree)).length < depthFor env.tree + 1 := by
    have hsquare : 8 * (env.tree.size + 2) * 1 ≤ 8 * (env.tree.size + 2) * (env.tree.size + 2) :=
      Nat.mul_le_mul_left _ (by omega)
    rw [List.length_cons] at hlength
    unfold depthFor
    omega
  exact ⟨⟨hprepared, hdepth⟩, by simp [Framed, hframes]⟩

/-- If nothing is reported for a file in which everything is in order, the file is well typed. -/
theorem check_wellTyped (file : Source.File) (maxErrors : Nat) : let t := (parse file maxErrors).tree
    let table := (resolve t).table
    (resolve t).diagnostics = [] → (check t table).diagnostics = [] → InOrder t table →
      WellTyped ⟨t, table⟩ (check t table).typing := by
  intro t table hnil hquiet horder
  have hscene : Scene ⟨t, table⟩ := scene_resolve hnil horder
  have h : t.Linked := hscene.linked
  obtain ⟨-, body, hroot⟩ := exists_module_parse file maxErrors
  change t.form? t.root = some (.module body) at hroot
  have hlength := length_reachedOutsideTypes_le h (neat_parse file maxErrors) hroot
  have hchildren : t.children t.root = body := by simp [children, hroot, Form.children]
  have hvisit := quiet_module hscene hroot hlength
  simp only [check, hchildren] at hquiet ⊢
  obtain ⟨horderly, hjudged⟩ := hvisit.result trivial (congrArg List.length hquiet)
  exact horderly.wellTyped h hjudged

set_option maxRecDepth 100000 in
/-- The result of the first function is inferred, and it is used behind the declaration only; that of the second
is written. -/
theorem check_wellTyped_of_mutual : ∃ file, let t := (parse file 0).tree
    let table := (resolve t).table
    WellTyped ⟨t, table⟩ (check t table).typing := by
  let text := "type P = \x7b n: i8 \x7d; const p: P = \x7b n: 1 \x7d; " ++
    "function f(q: P) \x7b if (q == p) \x7b return q; \x7d return g(q); \x7d " ++
    "function g(q: P): P \x7b return f(q); \x7d const r = f(p).n;"
  let file := Source.File.ofContent 0 "main.ts" text.toUTF8.toList 0
  let t := (parse file 0).tree
  have hfacts : (resolve t).diagnostics = [] ∧ (check t (resolve t).table).diagnostics = [] ∧
    InOrder t (resolve t).table := by
    decide +kernel
  exact ⟨file, check_wellTyped file 0 hfacts.1 hfacts.2.1 hfacts.2.2⟩

end TypedScript.Check
