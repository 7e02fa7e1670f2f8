import TypedScript.Proofs.Binding.Lexical

/-!
# Every name is bound

The walk comes to every name below the root: to the names of values and, in all written types, to the names of
types. So if nothing was reported, all of them are bound.

* `Comes`: a computation walks a node at some point.
* `covered_walk`: what is below a node that is walked is bound.
-/

namespace TypedScript.Binding

open TypedScript.Ast TypedScript.Ast.Tree

variable {t : Tree} {α β : Type}

/-! ### What is bound stays bound -/

/-- Nothing that was reported is taken back, and no name of a value or type becomes unbound. -/
structure Spreads (r r' : Resolver) : Prop where
  diagnostics : r'.diagnostics = [] → r.diagnostics = []
  refs : ∀ x, x ∈ r.table.refs → x ∈ r'.table.refs
  typeRefs : ∀ x, x ∈ r.table.typeRefs → x ∈ r'.table.typeRefs

instance : Std.Refl Spreads := ⟨fun _ => ⟨id, fun _ => id, fun _ => id⟩⟩

instance : IsTrans Resolver Spreads := ⟨fun _ _ _ h h' =>
  ⟨h.diagnostics ∘ h'.diagnostics, fun x hx => h'.refs x (h.refs x hx),
    fun x hx => h'.typeRefs x (h.typeRefs x hx)⟩⟩

theorem spreads_report (span : Source.Span) (p : Problem) (notes : List Diagnostic.Note) :
    Leaves Spreads (report span p notes) :=
  fun _ => ⟨fun hnil => (List.append_eq_nil_iff.1 hnil).1, fun _ => id, fun _ => id⟩

theorem spreads_declare (d : Nat) : Leaves Spreads (declare t d) := by
  intro r
  rcases declare_cases t d r with ⟨hrun, -⟩ | ⟨span, p, notes, hrun⟩ | ⟨top, outer, top', -, hrun, -⟩ <;> rw [hrun]
  · exact refl_of Spreads r
  · exact spreads_report _ _ _ r
  · exact ⟨id, fun _ => id, fun _ => id⟩

theorem spreads_inScope {act : ResolveM Unit} (h : Leaves Spreads act) : Leaves Spreads (inScope act) := by
  intro r
  have hinner := h { r with scopes := {} :: r.scopes }
  exact ⟨hinner.diagnostics, hinner.refs, hinner.typeRefs⟩

theorem spreads_resolveValue (x : Nat) (name : String) : Leaves Spreads (resolveValue t x name) := by
  intro r
  rcases resolveValue_cases t x name r with ⟨p, hrun⟩ | ⟨d, -, hrun⟩ <;> rw [hrun]
  · exact spreads_report _ _ _ r
  · exact ⟨id, fun y hy => Std.TreeMap.mem_insert.2 (.inr hy), fun _ => id⟩

theorem spreads_resolveType (x : Nat) (name : String) : Leaves Spreads (resolveType t x name) := by
  intro r
  rcases resolveType_cases t x name r with hrun | ⟨p, hrun⟩ | ⟨d, hrun⟩ <;> rw [hrun]
  · exact refl_of Spreads r
  · exact spreads_report _ _ _ r
  · exact ⟨id, fun _ => id, fun y hy => Std.TreeMap.mem_insert.2 (.inr hy)⟩

theorem spreads_walk (t : Tree) (id : Nat) : Leaves Spreads (walk t id) :=
  leaves_walk spreads_declare (fun _ => spreads_inScope) (fun x name _ => spreads_resolveValue x name)
    spreads_resolveType id

theorem spreads_walkParamType (t : Tree) (p : Nat) : Leaves Spreads (walkParamType t p) :=
  .forM fun c _ => spreads_walk t c

theorem spreads_hoist (t : Tree) (c : Nat) : Leaves Spreads (hoist t c) := .forM fun d _ => spreads_declare d

/-! ### What is walked -/

/-- A type name that is not that of a primitive type is looked up. -/
theorem resolveType_lookup {x : Nat} {name : String} (hname : Ty.isPrimitiveName name = false) (r : Resolver) :
    (∃ p, (resolveType t x name r).2 = (report (t.span x) p [] r).2) ∨ ∃ d, lookupIn
    (·.types) name r.scopes = some d ∧
      (resolveType t x name r).2 =
        { r with table := { r.table with typeRefs := r.table.typeRefs.insert x d } } := by
  unfold resolveType
  rw [if_neg (by simp [hname])]
  simp only [bind, StateT.bind, get, getThe, MonadStateOf.get, StateT.get, pure]
  cases hd : lookupIn (·.types) name r.scopes with
  | none => exact .inl ⟨.unknownType name, rfl⟩
  | some d => exact .inr ⟨d, rfl, rfl⟩

/-- At some point the computation walks the node. -/
def Comes (t : Tree) (c : Nat) (act : ResolveM α) : Prop := ∀ r, ∃ r₀, Spreads (walk t c r₀).2 (act r).2

namespace Comes

variable {c : Nat} {act : ResolveM α}

theorem walk (t : Tree) (c : Nat) : Comes t c (walk t c) := fun r => ⟨r, refl_of Spreads _⟩

theorem first {f : α → ResolveM β} (h : Comes t c act) (hf : ∀ a, Leaves Spreads (f a)) : Comes t c (act >>= f) :=
  fun r => (h r).imp fun _ hspreads => trans_of Spreads hspreads (hf _ _)

theorem later {f : α → ResolveM β} (hf : ∀ a, Comes t c (f a)) : Comes t c (act >>= f) := fun _ => hf _ _

theorem forM {xs : List α} {f : α → ResolveM Unit} (hf : ∀ x, Leaves Spreads (f x)) {x : α} (hx : x ∈ xs)
    (h : Comes t c (f x)) : Comes t c (xs.forM f) := by
  intro r
  obtain ⟨r₁, -, hafter⟩ := exists_forM hf hx r
  obtain ⟨r₀, hspreads⟩ := h r₁
  exact ⟨r₀, trans_of Spreads hspreads hafter⟩

theorem inScope {act : ResolveM Unit} (h : Comes t c act) : Comes t c (inScope act) := by
  intro r
  obtain ⟨r₀, hspreads⟩ := h { r with scopes := {} :: r.scopes }
  exact ⟨r₀, hspreads.diagnostics, hspreads.refs, hspreads.typeRefs⟩

end Comes

theorem comes_walkParamType {p : Nat} {name : String} {type : Option Nat}
    (hp : t.form? p = some (.param name type)) :
    ∀ e ∈ t.children p, Comes t e (walkParamType t p) := by
  intro e he
  have he : e ∈ type.toList := by simpa [children, hp, Form.children] using he
  exact .forM (spreads_walk t) (by simpa [hp, Form.type?] using he) (.walk t e)

/-- A name is bound, unless it is the name of a primitive type. -/
structure IsBound (t : Tree) (r : Resolver) (x : Nat) : Prop where
  value (name : String) : t.form? x = some (.ident name) → x ∈ r.table.refs
  type (name : String) : t.form? x = some (.typeName name) → Ty.isPrimitiveName name = false → x ∈ r.table.typeRefs

theorem IsBound.mono {r r' : Resolver} {x : Nat} (h : IsBound t r x) (hspreads : Spreads r r') : IsBound t r' x :=
  ⟨fun name hx => hspreads.refs x (h.value name hx), fun name hx hne => hspreads.typeRefs x (h.type name hx hne)⟩

/-- The parts of a node that is walked are walked, or they are no names and their parts are walked. -/
theorem comes_part (h : t.Linked) {id : Nat} {f : Form} (hf : t.form? id = some f) {c : Nat} (hc : c ∈ f.children) :
    Comes t c (walk t id) ∨ (∀ r, IsBound t r c) ∧ ∀ e ∈ t.children c, Comes t e (walk t id) := by
  -- a parameter is no name; what is walked of it is its type
  have hparam {p : Nat} (hp : p ∈ f.params) : (∀ r, IsBound t r p) ∧ ∀ e ∈ t.children p,
    Comes t e (walkParamType t p) := by
    obtain ⟨name, type, hform⟩ := h.param_part hf (mem_parts_of_params hp)
    exact ⟨fun r => ⟨by simp [hform], by simp [hform]⟩, comes_walkParamType hform⟩
  have hsigned (params : List Nat) : Leaves Spreads (params.forM (walkParamType t)) :=
    .forM fun p _ => spreads_walkParamType t p
  rcases form_shape f with ⟨body, hform⟩ | ⟨body, hb⟩ | ⟨result, hr, hform⟩ | ⟨name, isConst, type, init, rfl⟩ |
    ⟨name, rfl⟩ | ⟨name, rfl⟩ | hplain
  · refine .inl ?_
    rw [walk_block h hf hform]
    have hc : c ∈ body := by rcases hform with rfl | rfl <;> exact hc
    exact .inScope (.later fun _ => .forM (spreads_walk t) hc (.walk t c))
  · rw [walk_function h hf hb]
    have hdeclared (p : Nat) : Leaves Spreads (do walkParamType t p; declare t p) :=
      (spreads_walkParamType t p).bind fun _ => spreads_declare p
    have htypes : Leaves Spreads (f.type?.toList.forM (walk t)) := .forM fun c _ => spreads_walk t c
    have hbody : Leaves Spreads ((bodyParts t body).forM (walk t)) := .forM fun c _ => spreads_walk t c
    have hrest : Leaves Spreads (do hoist t id; (bodyParts t body).forM (walk t)) :=
      (spreads_hoist t id).bind fun _ => hbody
    have hplace : c ∈ f.params ∨ c ∈ f.type?.toList ∨ c = body := by
      cases f with
      | funcDecl name params result b | arrowFunc params result b =>
        obtain rfl : b = body := by simpa [Form.body?] using hb
        simpa [Form.children, Form.params, Form.type?] using hc
      | _ => cases hb
    rcases hplace with hc | hc | rfl
    · refine .inr ⟨(hparam hc).1, fun e he => .inScope (.first ?_ fun _ => htypes.bind fun _ => hrest)⟩
      exact .forM hdeclared hc (.first ((hparam hc).2 e he) fun _ => spreads_declare c)
    · exact .inl (.inScope (.later fun _ => .first (.forM (spreads_walk t) hc (.walk t c)) fun _ => hrest))
    -- the statements of a body are walked in the scope of the function, without a scope for their block
    · by_cases hblock : ∃ stmts, t.form? c = some (.block stmts)
      · obtain ⟨stmts, hstmts⟩ := hblock
        refine .inr ⟨fun r => ⟨by simp [hstmts], by simp [hstmts]⟩, fun e he => ?_⟩
        have he : e ∈ bodyParts t c := by simpa [bodyParts, hstmts, children, Form.children] using he
        exact .inScope (.later fun _ => .later fun _ => .later fun _ => .forM (spreads_walk t) he (.walk t e))
      · have he : c ∈ bodyParts t c := by
          unfold bodyParts
          split
          · rename_i stmts hstmts
            exact (hblock ⟨stmts, hstmts⟩).elim
          · exact List.mem_singleton_self c
        exact .inl (.inScope (.later fun _ => .later fun _ => .later fun _ =>
          .forM (spreads_walk t) he (.walk t c)))
  · rw [walk_signature h hf hr hform]
    have hplace : c ∈ f.params ∨ c = result := by
      rcases hform with ⟨name, params, rfl⟩ | ⟨params, rfl⟩ <;> simpa [Form.children, Form.params] using hc
    rcases hplace with hc | rfl
    · refine .inr ⟨(hparam hc).1, fun e he => .first ?_ fun _ => spreads_walk t result⟩
      exact .forM (spreads_walkParamType t) hc ((hparam hc).2 e he)
    · exact .inl (.later fun _ => .walk t c)
  · rw [walk_varDecl h hf rfl]
    refine .inl ?_
    have hplace : c ∈ type.toList ∨ c = init := by simpa [Form.children] using hc
    rcases hplace with hc | rfl
    · refine .first (.forM (spreads_walk t) hc (.walk t c)) fun _ => ?_
      exact (spreads_declare id).bind fun _ => spreads_walk t init
    · exact .later fun _ => .later fun _ => .walk t c
  · cases hc
  · cases hc
  · rw [walk_plain h hf hplain]
    exact .inl (.forM (spreads_walk t) hc (.walk t c))

/-- If nothing is reported while a node is walked, every name below it is bound. -/
theorem covered_walk (h : t.Linked) {top x : Nat} (hx : Down t (fun _ => true) top x) (r : Resolver)
    (hnil : (walk t top r).2.diagnostics = []) : IsBound t (walk t top r).2 x := by
  induction top using Nat.strongRecOn generalizing r with
  | _ top ih =>
    have hcomes {c : Nat} (hlt : c < top) (hc : Comes t c (walk t top)) (hx : Down t (fun _ => true) c x) :
        IsBound t (walk t top r).2 x := by
      obtain ⟨r₀, hspreads⟩ := hc r
      exact (ih c hlt hx r₀ (hspreads.diagnostics hnil)).mono hspreads
    cases hx with
    | here _ =>
      constructor
      case value =>
        intro name hform
        rw [walk] at hnil ⊢
        simp only [hform] at hnil ⊢
        rcases resolveValue_cases t x name r with ⟨p, hrun⟩ | ⟨d, -, hrun⟩ <;> rw [hrun] at hnil ⊢
        · exact absurd hnil (List.append_ne_nil_of_right_ne_nil _ (by simp))
        · exact Std.TreeMap.mem_insert_self
      case type =>
        intro name hform hprimitive
        rw [walk] at hnil ⊢
        simp only [hform] at hnil ⊢
        rcases resolveType_lookup hprimitive r with ⟨p, hrun⟩ | ⟨d, -, hrun⟩ <;> rw [hrun] at hnil ⊢
        · exact absurd hnil (List.append_ne_nil_of_right_ne_nil _ (by simp))
        · exact Std.TreeMap.mem_insert_self
    | @part _ c _ _ hc hlt hx =>
      obtain ⟨f, hf, hc⟩ := mem_children.1 hc
      rcases comes_part h hf hc with hc | ⟨hbound, hc⟩
      · exact hcomes hlt hc hx
      · cases hx with
        | here _ => exact hbound _
        | part _ he hlt' hx => exact hcomes (Nat.lt_trans hlt' hlt) (hc _ he) hx

end TypedScript.Binding
