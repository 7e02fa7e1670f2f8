import Mathlib.Order.Defs.Unbundled
import TypedScript.Proofs.Binding.Visited

/-!
# Names are bound lexically

While a tree is walked, the scopes that are open are those of the containers around the place, and each holds
declarations of its container only. So a use refers to a declaration of a container around it. If nothing was
reported, every name that the walk came to is bound.
-/

namespace TypedScript.Binding

open TypedScript.Ast TypedScript.Ast.Tree

variable {t : Tree} {α β : Type}

/-! ### The walk, form by form -/

theorem forM_congr {xs : List α} {f g : α → ResolveM Unit} (h : ∀ x ∈ xs, f x = g x) : xs.forM f = xs.forM g := by
  induction xs with
  | nil => rfl
  | cons x xs ih =>
    change (f x >>= fun _ => xs.forM f) = (g x >>= fun _ => xs.forM g)
    rw [h x (by simp), ih fun y hy => h y (by simp [hy])]

/-- Binds the names in the written type of a parameter. -/
def walkParamType (t : Tree) (p : Nat) : ResolveM Unit := ((t.form? p).bind (·.type?)).toList.forM (walk t)

theorem forM_walk {id : Nat} {cs : List Nat} (hcs : ∀ c ∈ cs, c < id) :
    (cs.forM fun c => if _h : c < id then walk t c else pure ()) = cs.forM (walk t) :=
  forM_congr fun c hc => dif_pos (hcs c hc)

/-- The form is walked by walking its parts. -/
def isPlain : Form → Bool
  | .module _ | .block _ | .funcDecl .. | .arrowFunc .. | .declareFunc .. | .typeFunc .. | .varDecl .. | .ident _
  | .typeName _ => false
  | _ => true

theorem body?_of_isPlain {f : Form} (h : isPlain f = true) : f.body? = none := by
  cases f with
  | funcDecl | arrowFunc => exact nomatch h
  | _ => rfl

theorem isContainer_of_isPlain {t : Tree} {id : Nat} {f : Form} (hf : t.form? id = some f) (h : isPlain f = true) :
    t.isContainer id = false := by
  unfold isContainer
  rw [hf]
  cases f with
  | module | block | funcDecl | arrowFunc => exact nomatch h
  | _ => rfl

theorem mem_children_of_isPlain {t : Tree} {id c : Nat} {f : Form} (hf : t.form? id = some f) (h : isPlain f = true)
    (hc : c ∈ valueParts t id) : c ∈ f.children := by
  obtain ⟨g, hg, -, ⟨hchild, -⟩ | ⟨body, stmts, hb, -, -⟩⟩ := mem_valueParts hc
  · rwa [Option.some.inj (hf.symm.trans hg)]
  · obtain rfl := Option.some.inj (hf.symm.trans hg)
    exact nomatch hb.symm.trans (body?_of_isPlain h)

/-- The ways in which a form is walked. -/
theorem form_shape (f : Form) :
    (∃ body, f = .module body ∨ f = .block body) ∨ (∃ body, f.body? = some body) ∨
      (∃ result, f.type? = some result ∧ ((∃ name params, f = .declareFunc name params result) ∨
        ∃ params, f = .typeFunc params result)) ∨
      (∃ name isConst type init, f = .varDecl name isConst type init) ∨ (∃ name, f = .ident name) ∨
      (∃ name, f = .typeName name) ∨ isPlain f = true := by
  cases f <;> simp [isPlain, Form.body?, Form.type?]

theorem mem_parts_of_type? {f : Form} {c : Nat} (hc : f.type? = some c) : (.type, c) ∈ f.parts := by
  cases f <;> simp_all [Form.type?, Form.parts]

theorem mem_parts_of_params {f : Form} {c : Nat} (hc : c ∈ f.params) : (.param, c) ∈ f.parts := by
  cases f <;> simp_all [Form.params, Form.parts]

theorem mem_parts_of_body? {f : Form} {c : Nat} (hc : f.body? = some c) : (.node, c) ∈ f.parts := by
  cases f <;> simp_all [Form.body?, Form.parts]

section

variable (h : t.Linked) {id : Nat} {f : Form} (hf : t.form? id = some f)
include h hf

theorem forM_walk_type :
    (f.type?.toList.forM fun c => if _h : c < id then walk t c else pure ()) = f.type?.toList.forM (walk t) :=
  forM_walk fun _ hc => (h.fits hf _ (mem_parts_of_type? (Option.mem_toList.1 hc))).2.1

/-- The type of a parameter of `id` is written before `id`. -/
theorem walkParamType_eq {p : Nat} (hp : p ∈ f.params) :
    (((t.form? p).bind (·.type?)).toList.forM fun c => if _h : c < id then walk t c else pure ()) =
    walkParamType t p := by
  refine forM_walk fun c hc => ?_
  obtain ⟨g, hg, hc⟩ := Option.bind_eq_some_iff.1 (Option.mem_toList.1 hc)
  have hlt := (h.fits hf _ (mem_parts_of_params hp)).2.1
  have hlt' := (h.fits hg _ (mem_parts_of_type? hc)).2.1
  omega

theorem walk_block {body : List Nat} (hform : f = .module body ∨ f = .block body) :
    walk t id = inScope (do hoist t id; body.forM (walk t)) := by
  have hlt : ∀ c ∈ body, c < id := by
    intro c hc
    refine (h.part_lt (mem_children.2 ⟨f, hf, ?_⟩)).2
    rcases hform with rfl | rfl <;> exact hc
  rw [walk]
  rcases hform with rfl | rfl <;> simp only [hf, forM_walk hlt]

theorem walk_function {body : Nat} (hb : f.body? = some body) : walk t id = inScope (do
    f.params.forM fun p => do
      walkParamType t p
      declare t p
    f.type?.toList.forM (walk t)
    hoist t id
    (bodyParts t body).forM (walk t)) := by
  have hparams := forM_congr (f := fun p => do
      ((t.form? p).bind (·.type?)).toList.forM fun c => if _h : c < id then walk t c else pure ()
      declare t p) (g := fun p => do
      walkParamType t p
      declare t p) fun p hp => by rw [walkParamType_eq h hf hp]
  have hlt : ∀ c ∈ bodyParts t body, c < id := by
    intro c hc
    have hlt := (h.fits hf _ (mem_parts_of_body? hb)).2.1
    unfold bodyParts at hc
    split at hc
    · rename_i stmts hstmts
      have := (h.part_lt (mem_children.2 ⟨_, hstmts, hc⟩)).2
      omega
    · obtain rfl := List.mem_singleton.1 hc
      exact hlt
  have htype := forM_walk_type h hf
  rw [walk]
  cases f with
  | funcDecl name params result b | arrowFunc params result b =>
    obtain rfl : b = body := by simpa [Form.body?] using hb
    simp only [Form.params, Form.type?] at hparams htype ⊢
    simp only [hf, hparams, htype, forM_walk hlt]
  | _ => simp [Form.body?] at hb

theorem walk_signature {result : Nat} (hr : f.type? = some result)
    (hform : (∃ name params, f = .declareFunc name params result) ∨ ∃ params, f = .typeFunc params result) :
    walk t id = (do f.params.forM (walkParamType t); walk t result) := by
  have hparams := forM_congr fun p hp => walkParamType_eq h hf (p := p) hp
  have hlt := (h.fits hf _ (mem_parts_of_type? hr)).2.1
  rw [walk]
  rcases hform with ⟨name, params, rfl⟩ | ⟨params, rfl⟩
  all_goals
    simp only [Form.params] at hparams ⊢
    simp only [hf, hparams, dif_pos hlt]

theorem walk_varDecl {name : String} {isConst : Bool} {type : Option Nat} {init : Nat}
    (hform : f = .varDecl name isConst type init) :
    walk t id = (do type.toList.forM (walk t); declare t id; walk t init) := by
  have htype := forM_walk_type h hf
  subst hform
  have hlt := (h.fits hf (.expression, init) (by simp [Form.parts])).2.1
  simp only [Form.type?] at htype
  rw [walk]
  simp only [hf, htype, dif_pos hlt]

theorem walk_plain (hplain : isPlain f = true) : walk t id = f.children.forM (walk t) := by
  have hlt : ∀ c ∈ f.children, c < id := fun c hc => (h.part_lt (mem_children.2 ⟨f, hf, hc⟩)).2
  rw [walk]
  cases f <;> simp only [isPlain, Bool.false_eq_true] at hplain <;> simp only [hf, forM_walk hlt]

end

/-! ### Relations between before and after -/

/-- What the resolver knows after `act` is related to what it knew before. -/
def Leaves (R : Resolver → Resolver → Prop) (act : ResolveM α) : Prop := ∀ r, R r (act r).2

namespace Leaves

variable {R : Resolver → Resolver → Prop} {act : ResolveM α}

theorem pure [Std.Refl R] (a : α) : Leaves R (pure a) := fun r => refl_of R r

theorem bind [IsTrans Resolver R] {f : α → ResolveM β} (h : Leaves R act) (hf : ∀ a, Leaves R (f a)) :
    Leaves R (act >>= f) :=
  fun r => trans_of R (h r) (hf _ _)

theorem forM [Std.Refl R] [IsTrans Resolver R] {xs : List α} {f : α → ResolveM Unit} 
    (h : ∀ x ∈ xs, Leaves R (f x)) : Leaves R (xs.forM f) := by
  induction xs with
  | nil => exact .pure _
  | cons x xs ih => exact .bind (h x (by simp)) fun _ => ih fun y hy => h y (by simp [hy])

end Leaves

/-! ### Types -/

/-- Scopes and uses of values stay as they were. -/
def SameValues (r r' : Resolver) : Prop := r'.scopes = r.scopes ∧ r'.table.refs = r.table.refs

instance : Std.Refl SameValues := ⟨fun _ => ⟨rfl, rfl⟩⟩

instance : IsTrans Resolver SameValues := ⟨fun _ _ _ h h' => ⟨h'.1.trans h.1, h'.2.trans h.2⟩⟩

theorem sameValues_report (span : Source.Span) (p : Problem) (notes : List Diagnostic.Note) :
    Leaves SameValues (report span p notes) := fun _ => ⟨rfl, rfl⟩

theorem resolveType_cases (t : Tree) (id : Nat) (name : String) (r : Resolver) :
    (resolveType t id name r).2 = r ∨ (∃ p, (resolveType t id name r).2 = (report (t.span id) p [] r).2) ∨
      ∃ d, (resolveType t id name r).2 =
        { r with table := { r.table with typeRefs := r.table.typeRefs.insert id d } } := by
  unfold resolveType
  split
  · exact .inl rfl
  simp only [bind, StateT.bind, get, getThe, MonadStateOf.get, StateT.get, pure]
  cases lookupIn (·.types) name r.scopes with
  | none => exact .inr (.inl ⟨.unknownType name, rfl⟩)
  | some d => exact .inr (.inr ⟨d, rfl⟩)

theorem sameValues_resolveType (t : Tree) (id : Nat) (name : String) : Leaves SameValues
    (resolveType t id name) := by
  intro r
  rcases resolveType_cases t id name r with hrun | ⟨p, hrun⟩ | ⟨d, hrun⟩ <;> rw [hrun] <;> exact ⟨rfl, rfl⟩

/-- A type expression binds no value and declares nothing. -/
theorem sameValues_walk (h : t.Linked) {id : Nat} (htype : t.isType id = true) : Leaves SameValues (walk t id) := by
  induction id using Nat.strongRecOn with
  | _ id ih =>
    obtain ⟨f, hf, hftype⟩ : ∃ f, t.form? id = some f ∧ f.isType = true := by
      cases hf : t.form? id with
      | none => simp [Tree.isType, hf] at htype
      | some f => exact ⟨f, rfl, by simpa [Tree.isType, hf] using htype⟩
    have hpart {c : Nat} (hc : (.type, c) ∈ f.parts) : Leaves SameValues (walk t c) := by
      obtain ⟨hlt, htype⟩ := h.isType_part hf hc
      exact ih c hlt htype
    cases f with
    | typeName name =>
      rw [walk]
      simp only [hf]
      exact sameValues_resolveType t id name
    | typeObject fields =>
      rw [walk_plain h hf rfl]
      refine .forM fun c hc => ?_
      obtain ⟨hlt, htype⟩ := h.isType_field hf (List.mem_map_of_mem hc)
      exact ih c hlt htype
    | typeField name type =>
      rw [walk_plain h hf rfl]
      exact .forM fun c hc => hpart (by simpa [Form.parts, Form.children] using hc)
    | typeFunc params result =>
      rw [walk_signature h hf rfl (.inr ⟨params, rfl⟩)]
      refine .bind (.forM fun p hp => .forM fun c hc => ?_) fun _ => hpart (by simp [Form.parts])
      obtain ⟨g, hg, hc⟩ := Option.bind_eq_some_iff.1 (Option.mem_toList.1 hc)
      have hlt := (h.fits hf _ (mem_parts_of_params hp)).2.1
      obtain ⟨hlt', htype⟩ := h.isType_part hg (mem_parts_of_type? hc)
      exact ih c (Nat.lt_trans hlt' hlt) htype
    | _ => simp [Form.isType] at hftype

theorem sameValues_type? (h : t.Linked) {id : Nat} {f : Form} (hf : t.form? id = some f) :
    Leaves SameValues (f.type?.toList.forM (walk t)) :=
  .forM fun _ hc => sameValues_walk h (h.isType_part hf (mem_parts_of_type? (Option.mem_toList.1 hc))).2

theorem sameValues_walkParamType (h : t.Linked) (p : Nat) : Leaves SameValues (walkParamType t p) := by
  unfold walkParamType
  cases hp : t.form? p with
  | none => exact .pure _
  | some f => exact sameValues_type? h hp

/-! ### Scopes -/

/-- The node declares a value in the container. -/
def DeclaresValue (t : Tree) (c d : Nat) : Prop := d ∈ t.decls c ∧ symbolKind t d ≠ .type

/-- Each scope holds declarations of its container only, and uses refer to declarations of a container around
them. -/
structure Lexical (t : Tree) (cs : List Nat) (r : Resolver) : Prop where
  scopes : List.Forall₂ (fun c (s : Names) => ∀ n d, (n, d) ∈ s.values → DeclaresValue t c d) cs r.scopes
  refs : ∀ x d, r.table.refs[x]? = some d → ∃ c, DeclaresValue t c d ∧ c ∈ t.ancestors x

/-- Keeps the scopes lexical. -/
def Keeps (t : Tree) (cs : List Nat) (r r' : Resolver) : Prop := Lexical t cs r → Lexical t cs r'

instance {cs : List Nat} : Std.Refl (Keeps t cs) := ⟨fun _ => id⟩

instance {cs : List Nat} : IsTrans Resolver (Keeps t cs) := ⟨fun _ _ _ h h' => h' ∘ h⟩

theorem SameValues.keeps {cs : List Nat} {r r' : Resolver} (h : SameValues r r') : Keeps t cs r r' := fun hr =>
  ⟨h.1 ▸ hr.scopes, h.2 ▸ hr.refs⟩

theorem Leaves.keeps {cs : List Nat} {act : ResolveM α} (h : Leaves SameValues act) : Leaves (Keeps t cs) act :=
  fun r => (h r).keeps

/-- Declaring a name reports why it cannot be, or adds it to the innermost scope if that has it not yet. -/
theorem declare_cases (t : Tree) (d : Nat) (r : Resolver) :
    (declare t d r).2 = r ∧ r.scopes = [] ∨ (∃ span p notes, (declare t d r).2 = (report span p notes r).2) ∨
      ∃ top outer top', r.scopes = top :: outer ∧ (declare t d r).2 = { r with scopes := top' :: outer } ∧
        (symbolKind t d = .type ∧ top'.values = top.values ∨ symbolKind t d ≠ .type ∧
          top.values.lookup (t.name d) = none ∧ top'.values = (t.name d, d) :: top.values) := by
  unfold declare
  split
  · exact .inr (.inl ⟨_, _, _, rfl⟩)
  obtain ⟨scopes, table, diagnostics⟩ := r
  cases scopes with
  | nil => exact .inl ⟨rfl, rfl⟩
  | cons top outer =>
    simp only [bind, StateT.bind, get, getThe, MonadStateOf.get, StateT.get, pure]
    cases hl : (if symbolKind t d = .type then top.types else top.values).lookup (t.name d) with
    | some prev =>
      exact .inr (.inl ⟨t.span d, .duplicate (t.name d), [⟨t.span prev, "previous declaration"⟩], rfl⟩)
    | none =>
      refine .inr (.inr ⟨top, outer, _, rfl, rfl, ?_⟩)
      by_cases hkind : symbolKind t d = .type
      · exact .inl ⟨hkind, by rw [if_pos hkind]⟩
      · rw [if_neg hkind] at hl
        exact .inr ⟨hkind, hl, by rw [if_neg hkind]⟩

theorem keeps_declare {cs : List Nat} {d : Nat} (hd : ∀ c ∈ cs.head?, d ∈ t.decls c) : Leaves (Keeps t cs)
    (declare t d) := by
  intro r hr
  rcases declare_cases t d r with ⟨hrun, -⟩ | ⟨span, p, notes, hrun⟩ | ⟨top, outer, top', hold, hrun, hvalues⟩ <;>
    rw [hrun]
  · exact hr
  · exact (sameValues_report _ _ _ r).keeps hr
  refine ⟨?_, hr.refs⟩
  have hscopes := hr.scopes
  rw [hold] at hscopes
  obtain ⟨c, cs, htop, houter, rfl⟩ := List.forall₂_cons_right_iff.1 hscopes
  refine .cons (fun n d' hmem => ?_) houter
  rcases hvalues with ⟨-, hsame⟩ | ⟨hkind, -, hnew⟩
  · exact htop n d' (hsame ▸ hmem)
  · rw [hnew] at hmem
    rcases List.mem_cons.1 hmem with heq | hmem
    · exact (Prod.mk.inj heq).2 ▸ ⟨hd c rfl, hkind⟩
    · exact htop n d' hmem

theorem keeps_hoist {cs : List Nat} {c : Nat} : Leaves (Keeps t (c :: cs)) (hoist t c) := by
  refine .forM fun d hd => keeps_declare fun c' hc' => ?_
  obtain rfl : c = c' := by simpa using hc'
  exact (List.mem_filter.1 hd).1

theorem keeps_inScope {cs : List Nat} {act : ResolveM Unit} (c : Nat) (h : Leaves (Keeps t (c :: cs)) act) :
    Leaves (Keeps t cs) (inScope act) := by
  intro r hr
  have hinner := h { r with scopes := {} :: r.scopes } ⟨.cons nofun hr.scopes, hr.refs⟩
  refine ⟨?_, hinner.refs⟩
  have hscopes := hinner.scopes
  change List.Forall₂ _ _ (act { r with scopes := {} :: r.scopes }).2.scopes.tail
  cases hact : (act { r with scopes := {} :: r.scopes }).2.scopes with
  | nil => simp [hact] at hscopes
  | cons top outer =>
    rw [hact] at hscopes
    exact (List.forall₂_cons.1 hscopes).2

theorem resolveValue_cases (t : Tree) (id : Nat) (name : String) (r : Resolver) :
    (∃ p, (resolveValue t id name r).2 = (report (t.span id) p [] r).2) ∨
      ∃ d, lookupIn (·.values) name r.scopes = some d ∧
        (resolveValue t id name r).2 = { r with table := { r.table with refs := r.table.refs.insert id d } } := by
  simp only [resolveValue, bind, StateT.bind, get, getThe, MonadStateOf.get, StateT.get, pure]
  cases hd : lookupIn (·.values) name r.scopes with
  | none => exact .inl ⟨.unresolved name, rfl⟩
  | some d =>
    dsimp only
    split
    · exact .inl ⟨.usedBeforeInitialization name, rfl⟩
    · exact .inr ⟨d, rfl, rfl⟩

theorem mem_of_lookupIn {part : Names → List (String × Nat)} {name : String} {scopes : List Names} {d : Nat}
    (h : lookupIn part name scopes = some d) : ∃ s ∈ scopes, (name, d) ∈ part s := by
  obtain ⟨s, hs, hd⟩ := List.exists_of_findSome?_eq_some h
  obtain ⟨front, back, heq, -⟩ := List.lookup_eq_some_iff.1 hd
  exact ⟨s, hs, by simp [heq]⟩

theorem exists_of_forall₂ {P : α → β → Prop} {xs : List α} {ys : List β} (h : List.Forall₂ P xs ys)
    {y : β} (hy : y ∈ ys) :
    ∃ x ∈ xs, P x y := by
  induction h with
  | nil => exact nomatch hy
  | cons hp _ ih =>
    rcases List.mem_cons.1 hy with rfl | hy
    · exact ⟨_, List.mem_cons_self, hp⟩
    · obtain ⟨x, hx, hp⟩ := ih hy
      exact ⟨x, List.mem_cons_of_mem _ hx, hp⟩

theorem keeps_resolveValue {cs : List Nat} {id : Nat} (hcs : ∀ c ∈ cs, c ∈ t.ancestors id) (name : String) :
    Leaves (Keeps t cs) (resolveValue t id name) := by
  intro r hr
  rcases resolveValue_cases t id name r with ⟨p, hrun⟩ | ⟨d, hd, hrun⟩ <;> rw [hrun]
  · exact (sameValues_report _ _ _ r).keeps hr
  refine ⟨hr.scopes, fun x d' hx => ?_⟩
  change (r.table.refs.insert id d)[x]? = some d' at hx
  rw [Std.TreeMap.getElem?_insert] at hx
  split at hx
  · rename_i heq
    obtain rfl : id = x := Std.LawfulEqCmp.eq_of_compare heq
    obtain rfl : d = d' := Option.some.inj hx
    obtain ⟨s, hs, hmem⟩ := mem_of_lookupIn hd
    obtain ⟨c, hc, hvalues⟩ := exists_of_forall₂ hr.scopes hs
    exact ⟨c, hvalues name d hmem, hcs c hc⟩
  · exact hr.refs x d' hx

/-- The containers around a node, as far as their scopes are open. -/
structure Around (t : Tree) (cs : List Nat) (id : Nat) : Prop where
  ancestors : ∀ c ∈ cs, c ∈ t.ancestors id
  head : ∀ c ∈ cs.head?, c = t.container id

theorem Around.inside {cs : List Nat} {id c : Nat} (h : Around t cs id) (hid : t.isContainer id = true)
    (hc : Below t id c) : Around t (id :: cs) c where
  ancestors a ha := hc.ancestors a ((List.mem_cons.1 ha).imp_right (h.ancestors a))
  head a ha := by
    obtain rfl : id = a := by simpa using ha
    rw [hc.container, if_pos hid]

theorem Around.beside {cs : List Nat} {id c : Nat} (h : Around t cs id) (hid : t.isContainer id = false)
    (hc : Below t id c) : Around t cs c where
  ancestors a ha := hc.ancestors a (.inr (h.ancestors a ha))
  head a ha := by
    rw [h.head a ha, hc.container, hid]
    rfl

theorem mem_decls {c d : Nat} : d ∈ t.decls c ↔ d ∈ t.reachedOutsideTypes ∧ t.isDeclaration d = true ∧
    t.container d = c := by
  simp [decls]

/-- A declaration has a container. -/
theorem container_ne_zero (h : t.Linked) {c d : Nat} (hd : d ∈ t.decls c) : c ≠ 0 := by
  obtain ⟨hout, hdecl, rfl⟩ := mem_decls.1 hd
  have hreached := reached_of_outside hout
  have hpos := (mem_walk.1 hreached).pos
  obtain ⟨body, hmodule⟩ := h.root_module.resolve_left (Nat.ne_of_gt hpos)
  have hne : d ≠ t.root := by
    rintro rfl
    simp [isDeclaration, hmodule] at hdecl
  exact nearest_ne_zero (h.root_mem_ancestors hreached hne) (by simp [isContainer, hmodule])

theorem mem_decls_param (h : t.Linked) {id p : Nat} {f : Form} (hid : id ∈ t.reachedOutsideTypes)
    (hf : t.form? id = some f) (hfun : f.isFunction = true) (hp : p ∈ f.params) : p ∈ t.decls id := by
  have hpart := mem_parts_of_params hp
  obtain ⟨name, type, hform⟩ := h.param_part hf hpart
  have hchild : p ∈ t.children id := by
    refine mem_children.2 ⟨f, hf, ?_⟩
    rw [← Form.map_snd_parts]
    exact List.mem_map_of_mem hpart
  have hfunction : t.isFunction id = true := by simp [Tree.isFunction, hf, hfun]
  have htype : t.isType id = false := isType_of_isFunction hfunction
  have hreached := reached_of_outside hid
  have hbelow := below_child h hreached htype hchild
  refine mem_decls.2 ⟨hbelow.outside hid, ?_, ?_⟩
  · simp [isDeclaration, hform, h.parent_part hreached hchild, hfunction]
  · rw [hbelow.container, if_pos (isContainer_of_isFunction hfunction)]

theorem keeps_walk (h : t.Linked) {cs : List Nat} {id : Nat} (hid : id ∈ t.reachedOutsideTypes)
    (hopens : OpensBlock t id) (hcs : Around t cs id) : Leaves (Keeps t cs) (walk t id) := by
  induction id using Nat.strongRecOn generalizing cs with
  | _ id ih =>
    have hreached := reached_of_outside hid
    cases hf : t.form? id with
    | none =>
      rw [walk]
      simp only [hf]
      exact .pure _
    | some f =>
      have hinside {c : Nat} (hcont : t.isContainer id = true) (hc : c ∈ valueParts t id) :
          Leaves (Keeps t (id :: cs)) (walk t c) := by
        obtain ⟨hbelow, hopens⟩ := below_part h hreached hc
        exact ih c hbelow.lt (hbelow.outside hid) hopens (hcs.inside hcont hbelow)
      rcases form_shape f with ⟨body, hform⟩ | ⟨body, hb⟩ | ⟨result, hr, hform⟩ | ⟨name, isConst, type, init, rfl⟩ |
        ⟨name, rfl⟩ | ⟨name, rfl⟩ | hplain
      · rw [walk_block h hf hform]
        have hcont : t.isContainer id = true := by
          rcases hform with rfl | rfl
          · simp [isContainer, hf]
          · exact hopens body hf
        refine keeps_inScope id (keeps_hoist.bind fun _ => .forM fun c hc => hinside hcont ?_)
        rcases hform with rfl | rfl <;> simpa [valueParts, hf, Form.children, Form.isType] using hc
      · rw [walk_function h hf hb]
        have hfun := isFunction_of_body? hb
        have hcont : t.isContainer id = true := isContainer_of_isFunction (by simp [Tree.isFunction, hf, hfun])
        refine keeps_inScope id (.bind (.forM fun p hp => ?_) fun _ => ?_)
        · refine .bind (sameValues_walkParamType h p).keeps fun _ => keeps_declare fun c hc => ?_
          obtain rfl : id = c := by simpa using hc
          exact mem_decls_param h hid hf hfun hp
        refine .bind (sameValues_type? h hf).keeps fun _ => keeps_hoist.bind fun _ => .forM fun c hc =>
          hinside hcont ?_
        rwa [valueParts_of_body? hf hb]
      · rw [walk_signature h hf hr hform]
        refine .bind (.forM fun p _ => (sameValues_walkParamType h p).keeps) fun _ => ?_
        exact (sameValues_walk h (h.isType_part hf (mem_parts_of_type? hr)).2).keeps
      · rw [walk_varDecl h hf rfl]
        refine .bind (sameValues_type? h hf).keeps fun _ => .bind (keeps_declare fun c hc => ?_) fun _ => ?_
        · rw [hcs.head c hc]
          exact mem_decls.2 ⟨hid, by simp [isDeclaration, hf], rfl⟩
        · obtain ⟨hbelow, hopens⟩ := below_part h hreached (c := init) (by simp [valueParts, hf])
          have hcont : t.isContainer id = false := by simp [isContainer, hf]
          exact ih init hbelow.lt (hbelow.outside hid) hopens (hcs.beside hcont hbelow)
      · rw [walk]
        simp only [hf]
        exact keeps_resolveValue hcs.ancestors name
      · rw [walk]
        simp only [hf]
        exact (sameValues_resolveType t id name).keeps
      · by_cases htype : t.isType id = true
        · exact (sameValues_walk h htype).keeps
        rw [Bool.not_eq_true] at htype
        rw [walk_plain h hf hplain]
        refine .forM fun c hc => ?_
        have hbelow := below_child h hreached htype (mem_children.2 ⟨f, hf, hc⟩)
        have hcont := isContainer_of_isPlain hf hplain
        refine ih c hbelow.lt (hbelow.outside hid) (fun stmts hstmts => ?_) (hcs.beside hcont hbelow)
        exact (isContainer_block h hreached hf hc hstmts).2 (by simp [body?_of_isPlain hplain])

/-- Every use refers to a declaration of a container around it. -/
theorem resolve_lexical (h : t.Linked) {x d : Nat} (hx : (resolve t).table.decl? x = some d) :
    ∃ c, DeclaresValue t c d ∧ c ∈ t.ancestors x := by
  have hstart : Lexical t [] {} := ⟨.nil, fun x d hx => by simp at hx⟩
  have hend : Lexical t [] (walk t t.root {}).2 := by
    by_cases hroot : t.root = 0
    · rw [hroot, walk]
      exact hstart
    · have hid : t.root ∈ t.reachedOutsideTypes := mem_walk.2 (.here (Nat.pos_of_ne_zero hroot))
      exact keeps_walk h hid (opensBlock_root h) ⟨by simp, by simp⟩ {} hstart
  exact hend.refs x d hx

/-! ### Names that are bound -/

/-- Nothing that was reported is taken back, and no name that was bound becomes unbound. -/
structure Grown (r r' : Resolver) : Prop where
  diagnostics : r'.diagnostics = [] → r.diagnostics = []
  refs : ∀ x, x ∈ r.table.refs → x ∈ r'.table.refs

instance : Std.Refl Grown := ⟨fun _ => ⟨id, fun _ => id⟩⟩

instance : IsTrans Resolver Grown :=
  ⟨fun _ _ _ h h' => ⟨h.diagnostics ∘ h'.diagnostics, fun x hx => h'.refs x (h.refs x hx)⟩⟩

theorem grown_report (span : Source.Span) (p : Problem) (notes : List Diagnostic.Note) : Leaves Grown
    (report span p notes) :=
  fun _ => ⟨fun hnil => (List.append_eq_nil_iff.1 hnil).1, fun _ => id⟩

theorem grown_declare (d : Nat) : Leaves Grown (declare t d) := by
  intro r
  rcases declare_cases t d r with ⟨hrun, -⟩ | ⟨span, p, notes, hrun⟩ | ⟨top, outer, top', -, hrun, -⟩ <;> rw [hrun]
  · exact refl_of Grown r
  · exact grown_report _ _ _ r
  · exact ⟨id, fun _ => id⟩

theorem grown_inScope {act : ResolveM Unit} (h : Leaves Grown act) : Leaves Grown (inScope act) := by
  intro r
  have hinner := h { r with scopes := {} :: r.scopes }
  exact ⟨hinner.diagnostics, hinner.refs⟩

theorem grown_resolveValue (x : Nat) (name : String) : Leaves Grown (resolveValue t x name) := by
  intro r
  rcases resolveValue_cases t x name r with ⟨p, hrun⟩ | ⟨d, -, hrun⟩ <;> rw [hrun]
  · exact grown_report _ _ _ r
  · exact ⟨id, fun y hy => Std.TreeMap.mem_insert.2 (.inr hy)⟩

theorem grown_resolveType (x : Nat) (name : String) : Leaves Grown (resolveType t x name) := by
  intro r
  rcases resolveType_cases t x name r with hrun | ⟨p, hrun⟩ | ⟨d, hrun⟩ <;> rw [hrun]
  · exact refl_of Grown r
  · exact grown_report _ _ _ r
  · exact ⟨id, fun _ => id⟩

/-- What declaring and binding leave, and what a scope of its own does not change, the walk leaves. -/
theorem leaves_walk {R : Resolver → Resolver → Prop} [Std.Refl R] [IsTrans Resolver R]
    (hdeclare : ∀ d, Leaves R (declare t d)) (hscope : ∀ act : ResolveM Unit, Leaves R act → Leaves R (inScope act))
    (hvalue : ∀ x name, t.form? x = some (.ident name) → Leaves R (resolveValue t x name))
    (htype : ∀ x name, Leaves R (resolveType t x name)) (id : Nat) : Leaves R (walk t id) := by
  induction id using Nat.strongRecOn with
  | _ id ih =>
    have hsub (c : Nat) : Leaves R (if _h : c < id then walk t c else pure ()) := by
      split
      · rename_i hlt
        exact ih c hlt
      · exact .pure _
    have hhoist : Leaves R (hoist t id) := .forM fun d _ => hdeclare d
    have hfunction (params : List Nat) (result : Option Nat) (body : Nat) : Leaves R (inScope do
        params.forM fun p => do
          ((t.form? p).bind (·.type?)).toList.forM fun c => if _h : c < id then walk t c else pure ()
          declare t p
        result.toList.forM fun c => if _h : c < id then walk t c else pure ()
        hoist t id
        (bodyParts t body).forM fun c => if _h : c < id then walk t c else pure ()) :=
      hscope _ (.bind (.forM fun p _ => .bind (.forM fun c _ => hsub c) fun _ => hdeclare p) fun _ =>
        .bind (.forM fun c _ => hsub c) fun _ => hhoist.bind fun _ => .forM fun c _ => hsub c)
    rw [walk]
    split
    · exact .pure _
    · exact hscope _ (hhoist.bind fun _ => .forM fun c _ => hsub c)
    · exact hscope _ (hhoist.bind fun _ => .forM fun c _ => hsub c)
    · exact hfunction _ _ _
    · exact hfunction _ _ _
    · exact .bind (.forM fun p _ => .forM fun c _ => hsub c) fun _ => hsub _
    · exact .bind (.forM fun p _ => .forM fun c _ => hsub c) fun _ => hsub _
    · exact .bind (.forM fun c _ => hsub c) fun _ => (hdeclare id).bind fun _ => hsub _
    · exact hvalue id _ ‹_›
    · exact htype id _
    · exact .forM fun c _ => hsub c

theorem grown_walk (t : Tree) (id : Nat) : Leaves Grown (walk t id) :=
  leaves_walk grown_declare (fun _ => grown_inScope) (fun x name _ => grown_resolveValue x name)
    grown_resolveType id

/-- What is bound anew is a name. -/
def BindsNames (t : Tree) (r r' : Resolver) : Prop :=
  ∀ x, x ∈ r'.table.refs → x ∈ r.table.refs ∨ ∃ name, t.form? x = some (.ident name)

instance : Std.Refl (BindsNames t) := ⟨fun _ _ => .inl⟩

instance : IsTrans Resolver (BindsNames t) := ⟨fun _ _ _ h h' x hx => (h' x hx).elim (h x) .inr⟩

theorem bindsNames_walk (t : Tree) (id : Nat) : Leaves (BindsNames t) (walk t id) := by
  refine leaves_walk (fun d r => ?_) (fun act h r => h { r with scopes := {} :: r.scopes }) (fun y name hy r => ?_)
    (fun y name r => ?_) id
  · rcases declare_cases t d r with ⟨hrun, -⟩ | ⟨span, p, notes, hrun⟩ | ⟨top, outer, top', -, hrun, -⟩ <;>
      rw [hrun] <;>
      exact fun _ => .inl
  · rcases resolveValue_cases t y name r with ⟨p, hrun⟩ | ⟨d, -, hrun⟩ <;> rw [hrun]
    · exact fun _ => .inl
    · intro x hx
      rcases Std.TreeMap.mem_insert.1 hx with heq | hx
      · obtain rfl := Nat.compare_eq_eq.1 heq
        exact .inr ⟨name, hy⟩
      · exact .inl hx
  · rcases resolveType_cases t y name r with hrun | ⟨p, hrun⟩ | ⟨d, hrun⟩ <;> rw [hrun] <;> exact fun _ => .inl

/-- Only names refer to something. -/
theorem exists_ident_of_decl? {x d : Nat} (hx : (resolve t).table.decl? x = some d) : ∃ name, t.form? x = some
    (.ident name) :=
  (bindsNames_walk t t.root {} x (Std.TreeMap.mem_iff_isSome_getElem?.2 (Option.isSome_of_eq_some hx))).resolve_left
    (by simp)

/-- After some of the actions the resolver did `f x`, and the others after that. -/
theorem exists_forM {R : Resolver → Resolver → Prop} [Std.Refl R] [IsTrans Resolver R] {xs : List α}
    {f : α → ResolveM Unit} (hf : ∀ x, Leaves R (f x)) {x : α} (hx : x ∈ xs) (r : Resolver) : ∃ r₀, R r r₀ ∧ R
    (f x r₀).2 (xs.forM f r).2 := by
  induction xs generalizing r with
  | nil => exact nomatch hx
  | cons y ys ih =>
    rcases List.mem_cons.1 hx with rfl | hx
    · exact ⟨r, refl_of R r, Leaves.forM (fun y _ => hf y) _⟩
    · obtain ⟨r₀, hbefore, hafter⟩ := ih hx (f y r).2
      exact ⟨r₀, trans_of R (hf y r) hbefore, hafter⟩

/-- Walking a node walks its parts with a value. -/
theorem walk_part (h : t.Linked) {id c : Nat} (hc : c ∈ valueParts t id) (r : Resolver) :
    ∃ r₀, Grown (walk t c r₀).2 (walk t id r).2 := by
  cases hf : t.form? id with
  | none => simp [valueParts, hf] at hc
  | some f =>
    rcases form_shape f with ⟨body, hform⟩ | ⟨body, hb⟩ | ⟨result, hr, hform⟩ | ⟨name, isConst, type, init, rfl⟩ |
        ⟨name, rfl⟩ | ⟨name, rfl⟩ | hplain
    · rw [walk_block h hf hform]
      have hc : c ∈ body := by
        rcases hform with rfl | rfl <;> simpa [valueParts, hf, Form.children, Form.isType] using hc
      exact (exists_forM (grown_walk t) hc _).imp fun _ hgrown => ⟨hgrown.2.diagnostics, hgrown.2.refs⟩
    · rw [walk_function h hf hb]
      rw [valueParts_of_body? hf hb] at hc
      exact (exists_forM (grown_walk t) hc _).imp fun _ hgrown => ⟨hgrown.2.diagnostics, hgrown.2.refs⟩
    · rcases hform with ⟨name, params, rfl⟩ | ⟨params, rfl⟩ <;> simp [valueParts, hf, Form.isType] at hc
    · rw [walk_varDecl h hf rfl]
      obtain rfl : c = init := by simpa [valueParts, hf] using hc
      exact ⟨_, refl_of Grown _⟩
    · simp [valueParts, hf, Form.children] at hc
    · simp [valueParts, hf, Form.isType] at hc
    · rw [walk_plain h hf hplain]
      exact (exists_forM (grown_walk t) (mem_children_of_isPlain hf hplain hc) r).imp fun _ hgrown => hgrown.2

/-- If nothing was reported, every name that the walk comes to is bound. -/
theorem resolve_total (h : t.Linked) (hd : (resolve t).diagnostics = []) {x : Nat} (hx : Visited t x)
    {name : String} (hf : t.form? x = some (.ident name)) : ∃ d, (resolve t).table.decl? x = some d := by
  have hleads := hx.2
  have hbound : ∀ r, (walk t t.root r).2.diagnostics = [] → x ∈ (walk t t.root r).2.table.refs := by
    clear hd hx
    generalize t.root = start at hleads
    induction hleads with
    | here =>
      intro r hr
      rw [walk] at hr ⊢
      simp only [hf] at hr ⊢
      rcases resolveValue_cases t _ name r with ⟨p, hrun⟩ | ⟨d, -, hrun⟩ <;> rw [hrun] at hr ⊢
      · exact absurd hr (List.append_ne_nil_of_right_ne_nil _ (by simp))
      · exact Std.TreeMap.mem_insert_self
    | part hc _ ih =>
      intro r hr
      obtain ⟨r₀, hgrown⟩ := walk_part h hc r
      exact hgrown.refs _ (ih hf r₀ (hgrown.diagnostics hr))
  exact ⟨_, Std.TreeMap.getElem?_eq_some_getElem (hbound {} hd)⟩

end TypedScript.Binding
