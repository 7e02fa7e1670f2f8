import TypedScript.Proofs.Binding.Lexical

/-!
# A container declares a name only once

While a container is walked, everything it declares is added to the scope that was opened for it: its functions at
the start, its parameters next, and its variables where they stand. Scopes that are opened on the way are closed
again, and a name that the scope has already is reported. So if nothing was reported, what a container declares is
told apart by name.

* `Widens`: the innermost scope has grown, and has no name twice.
* `Declares`: if nothing is reported, the computation adds the declaration to the innermost scope.
* `name_injective`: two values that a container declares have different names.
-/

namespace TypedScript.Binding

open TypedScript.Ast TypedScript.Ast.Tree

variable {t : Tree} {α β : Type} {d : Nat}

/-! ### The innermost scope -/

/-- The values that the innermost scope has names for. -/
def Resolver.innermost (r : Resolver) : List (String × Nat) := (r.scopes.headD {}).values

/-- The innermost scope has grown, without getting a name twice, and those around it are as they were. -/
structure Widens (r r' : Resolver) : Prop where
  diagnostics : r'.diagnostics = [] → r.diagnostics = []
  isOpen : r.scopes ≠ [] → r'.scopes ≠ []
  outer : r'.scopes.tail = r.scopes.tail
  values : ∀ p ∈ r.innermost, p ∈ r'.innermost
  nodup : (r.innermost.map (·.1)).Nodup → (r'.innermost.map (·.1)).Nodup

theorem Widens.of_scopes {r r' : Resolver} (hd : r'.diagnostics = [] → r.diagnostics = [])
    (hs : r'.scopes = r.scopes) :
    Widens r r' := by
  have hi : r'.innermost = r.innermost := by rw [Resolver.innermost, hs, Resolver.innermost]
  exact ⟨hd, fun h => hs ▸ h, by rw [hs], fun p hp => hi ▸ hp, fun h => hi ▸ h⟩

instance : Std.Refl Widens := ⟨fun _ => .of_scopes id rfl⟩

instance : IsTrans Resolver Widens where
  trans _ _ _ h h' :=
    { diagnostics := h.diagnostics ∘ h'.diagnostics
      isOpen := h'.isOpen ∘ h.isOpen
      outer := h'.outer.trans h.outer
      values := fun p hp => h'.values p (h.values p hp)
      nodup := h'.nodup ∘ h.nodup }

theorem widens_report (span : Source.Span) (p : Problem) (notes : List Diagnostic.Note) :
    Leaves Widens (report span p notes) := fun _ => .of_scopes (fun hnil => (List.append_eq_nil_iff.1 hnil).1) rfl

/-- A name is added only if the scope has it not yet. -/
theorem widens_declare (d : Nat) : Leaves Widens (declare t d) := by
  intro r
  rcases declare_cases t d r with ⟨hrun, -⟩ | ⟨span, p, notes, hrun⟩ | ⟨top, outer, top', hold, hrun, hvalues⟩ <;>
    rw [hrun]
  · exact refl_of Widens r
  · exact widens_report _ _ _ r
  have hi : r.innermost = top.values := by rw [Resolver.innermost, hold]; rfl
  have hi' : Resolver.innermost { r with scopes := top' :: outer } = top'.values := rfl
  refine ⟨id, fun _ => List.cons_ne_nil _ _, by rw [hold]; rfl, ?_, ?_⟩ <;> rw [hi, hi'] <;>
    rcases hvalues with ⟨-, hsame⟩ | ⟨-, hnew, hadd⟩
  · exact fun p hp => hsame ▸ hp
  · exact fun p hp => hadd ▸ List.mem_cons_of_mem _ hp
  · exact fun h => hsame ▸ h
  · intro h
    rw [hadd, List.map_cons, List.nodup_cons]
    refine ⟨fun hmem => ?_, h⟩
    obtain ⟨q, hq, hname⟩ := List.mem_map.1 hmem
    have hne := List.lookup_eq_none_iff.1 hnew q hq
    simp [hname] at hne

theorem widens_inScope {act : ResolveM Unit} (h : Leaves Widens act) : Leaves Widens (inScope act) := by
  intro r
  have hinner := h { r with scopes := {} :: r.scopes }
  exact .of_scopes hinner.diagnostics hinner.outer

theorem widens_resolveValue (x : Nat) (name : String) : Leaves Widens (resolveValue t x name) := by
  intro r
  rcases resolveValue_cases t x name r with ⟨p, hrun⟩ | ⟨d, -, hrun⟩ <;> rw [hrun]
  · exact widens_report _ _ _ r
  · exact .of_scopes id rfl

theorem widens_resolveType (x : Nat) (name : String) : Leaves Widens (resolveType t x name) := by
  intro r
  rcases resolveType_cases t x name r with hrun | ⟨p, hrun⟩ | ⟨d, hrun⟩ <;> rw [hrun]
  · exact refl_of Widens r
  · exact widens_report _ _ _ r
  · exact .of_scopes id rfl

theorem widens_walk (t : Tree) (id : Nat) : Leaves Widens (walk t id) :=
  leaves_walk widens_declare (fun _ => widens_inScope) (fun x name _ => widens_resolveValue x name)
    widens_resolveType id

/-! ### What is added to it -/

/-- If nothing is reported, the computation leaves the declaration in the innermost scope, under its name. -/
def Declares (t : Tree) (d : Nat) (act : ResolveM α) : Prop :=
  ∀ r, r.scopes ≠ [] → (act r).2.diagnostics = [] → (t.name d, d) ∈ (act r).2.innermost

namespace Declares

variable {act : ResolveM α}

/-- What was declared first is still declared at the end. -/
theorem first {f : α → ResolveM β} (h : Declares t d act) (hf : ∀ a, Leaves Widens (f a)) :
    Declares t d (act >>= f) :=
  fun r hopen hnil => (hf _ _).values _ (h r hopen ((hf _ _).diagnostics hnil))

theorem later {f : α → ResolveM β} (h : Leaves Widens act) (hf : ∀ a, Declares t d (f a)) :
    Declares t d (act >>= f) :=
  fun r hopen hnil => hf _ _ ((h r).isOpen hopen) hnil

theorem forM {xs : List α} {f : α → ResolveM Unit} (hf : ∀ x, Leaves Widens (f x)) {x : α} (hx : x ∈ xs)
    (h : Declares t d (f x)) : Declares t d (xs.forM f) := by
  induction xs with
  | nil => exact nomatch hx
  | cons y ys ih =>
    rcases List.mem_cons.1 hx with rfl | hx
    · exact first h fun _ => .forM fun y _ => hf y
    · exact later (hf y) fun _ => ih hx

end Declares

theorem declares_declare (hd : symbolKind t d ≠ .type) : Declares t d (declare t d) := by
  intro r hopen hnil
  rcases declare_cases t d r with ⟨-, hclosed⟩ | ⟨span, p, notes, hrun⟩ | ⟨top, outer, top', -, hrun, hvalues⟩
  · exact absurd hclosed hopen
  · rw [hrun] at hnil
    exact absurd hnil (List.append_ne_nil_of_right_ne_nil _ (by simp))
  · obtain ⟨-, -, hadd⟩ := hvalues.resolve_left fun h => hd h.1
    rw [hrun]
    change _ ∈ top'.values
    rw [hadd]
    exact List.mem_cons_self

/-- Functions are declared when their container is entered. -/
theorem declares_hoist {c : Nat} (hd : DeclaresValue t c d) (hh : isHoisted t d = true) :
    Declares t d (hoist t c) :=
  .forM widens_declare (List.mem_filter.2 ⟨hd.1, hh⟩) (declares_declare hd.2)

/-! ### Where declarations stand -/

/-- Whether a form is walked in a scope of its own. -/
def opensScope : Form → Bool
  | .module _ | .block _ | .funcDecl .. | .arrowFunc .. => true
  | _ => false

/-- From the first node one goes to the second without opening a scope on the way. -/
inductive Beside (t : Tree) : Nat → Nat → Prop
  | here {id : Nat} : Beside t id id
  | part {id c x : Nat} {f : Form} : t.form? id = some f → opensScope f = false → c ∈ valueParts t id →
      Beside t c x →
      Beside t id x

theorem Beside.snoc {id x c : Nat} {f : Form} (h : Beside t id x) (hf : t.form? x = some f)
    (hopens : opensScope f = false) (hc : c ∈ valueParts t x) : Beside t id c := by
  induction h with
  | here => exact .part hf hopens hc .here
  | part hg hg' hp _ ih => exact .part hg hg' hp (ih hf hc)

/-- A variable is declared where it stands. The induction is on the way there. -/
theorem declares_beside (h : t.Linked) {x : Nat} (hx : Beside t x d) {name : String} {isConst : Bool}
    {type : Option Nat} {init : Nat} (hd : t.form? d = some (.varDecl name isConst type init)) : Declares t d
    (walk t x) := by
  induction hx with
  | here =>
    rw [walk_varDecl h hd rfl]
    refine .later (.forM fun c _ => widens_walk t c) fun _ => .first (declares_declare ?_) fun _ =>
      widens_walk t init
    cases isConst <;> simp [symbolKind, hd, SymbolKind.ofForm]
  | @part id c x f hf hopens hc _ ih =>
    rcases form_shape f with ⟨body, hform⟩ | ⟨body, hb⟩ | ⟨result, hr, hform⟩ | ⟨name, isConst, type, init, rfl⟩ |
        ⟨name, rfl⟩ | ⟨name, rfl⟩ | hplain
    · rcases hform with rfl | rfl <;> simp [opensScope] at hopens
    · cases f <;> simp_all [opensScope, Form.body?]
    · rcases hform with ⟨name, params, rfl⟩ | ⟨params, rfl⟩ <;> simp [valueParts, hf, Form.isType] at hc
    · obtain rfl : c = init := by simpa [valueParts, hf] using hc
      rw [walk_varDecl h hf rfl]
      exact .later (.forM fun c _ => widens_walk t c) fun _ => .later (widens_declare _) fun _ => ih hd
    · simp [valueParts, hf, Form.children] at hc
    · simp [valueParts, hf, Form.isType] at hc
    · rw [walk_plain h hf hplain]
      exact .forM (widens_walk t) (mem_children_of_isPlain hf hplain hc) (ih hd)

theorem isContainer_eq_opensScope {id : Nat} {f : Form} (hopens : OpensBlock t id) (hf : t.form? id = some f) :
    t.isContainer id = opensScope f := by
  cases f with
  | block stmts => exact hopens stmts hf
  | _ => simp [isContainer, hf, opensScope]

/-- What is gone to stands in a container that is gone to, with no scope opened in between; or it is the root. -/
theorem Visited.beside (h : t.Linked) {x : Nat} (hx : Visited t x) :
    t.container x = 0 ∨ Visited t (t.container x) ∧ ∃ y ∈ valueParts t (t.container x), Beside t y x := by
  obtain ⟨hpos, hleads⟩ := hx
  have hroot : t.container t.root = 0 := by rw [container, nearest, dif_neg (by simp [h.parent_root])]
  have hstart : Visited t t.root := ⟨hpos, .here⟩
  generalize t.root = start at hleads hroot hstart
  replace hroot : t.container start = 0 ∨
      Visited t (t.container start) ∧ ∃ y ∈ valueParts t (t.container start), Beside t y start := .inl hroot
  induction hleads with
  | here => exact hroot
  | @part id c x hc _ ih =>
    obtain ⟨hout, hopens⟩ := hstart.outside h
    obtain ⟨hbelow, -⟩ := below_part h (reached_of_outside hout) hc
    obtain ⟨f, hf, -⟩ := mem_valueParts hc
    refine ih (hstart.part hc) ?_
    rw [hbelow.container]
    split
    · exact .inr ⟨hstart, c, hc, .here⟩
    · rename_i hcont
      rw [isContainer_eq_opensScope hopens hf, Bool.not_eq_true] at hcont
      refine hroot.imp_right ?_
      rintro ⟨hv, y, hy, hbeside⟩
      exact ⟨hv, y, hy, hbeside.snoc hf hcont hc⟩

/-- What a node outside of types is part of stands outside of types. -/
theorem parent_outside {x : Nat} (hx : x ∈ t.reachedOutsideTypes) (h : t.Linked) :
    x = t.root ∨ t.parent x ∈ t.reachedOutsideTypes := by
  let P := fun x => x ∈ t.reachedOutsideTypes ∧ (x = t.root ∨ t.parent x ∈ t.reachedOutsideTypes)
  have hdown := mem_walk.1 hx
  refine (hdown.induct (P := P) ?_ ⟨mem_walk.2 (.here hdown.pos), .inl rfl⟩).2
  rintro id c ⟨hid, -⟩ henter hc
  obtain ⟨hpos, hlt⟩ := h.part_lt hc
  refine ⟨mem_walk.2 ((mem_walk.1 hid).snoc henter hc hlt hpos), .inr ?_⟩
  rw [h.parent_part (reached_of_outside hid) hc]
  exact hid

/-- Where a value that a container declares is added to the scope of the container. -/
inductive Site (t : Tree) (c d : Nat) : Prop
  | hoisted : isHoisted t d = true → Site t c d
  | param {f : Form} : t.form? c = some f → d ∈ f.params → f.isFunction = true → Site t c d
  | standing {y : Nat} {name : String} {isConst : Bool} {type : Option Nat} {init : Nat} :
      t.form? d = some (.varDecl name isConst type init) → y ∈ valueParts t c → Beside t y d → Site t c d

/-- A parameter belongs to the function that it is a part of. -/
theorem site_param (h : t.Linked) {c : Nat} {name : String} {type : Option Nat} (hd : DeclaresValue t c d)
    (hform : t.form? d = some (.param name type)) : Visited t c ∧ Site t c d := by
  obtain ⟨hout, hdecl, rfl⟩ := mem_decls.1 hd.1
  have hfun : t.isFunction (t.parent d) = true := by simpa [isDeclaration, hform] using hdecl
  have hne : t.parent d ≠ 0 := by
    intro hzero
    rw [hzero] at hfun
    cases hfun
  obtain ⟨hreached, hpart⟩ := h.part_parent hne
  have hcont : t.container d = t.parent d := by
    rw [container, h.nearest_part _ hreached hpart, if_pos (isContainer_of_isFunction hfun)]
  rw [hcont]
  have hparent : t.parent d ∈ t.reachedOutsideTypes := by
    refine (parent_outside hout h).resolve_left fun hroot => hne ?_
    rw [hroot, h.parent_root]
  obtain ⟨f, hf, hmem⟩ := mem_children.1 hpart
  have hffun : f.isFunction = true := by simpa [Tree.isFunction, hf] using hfun
  refine ⟨?_, .param hf ?_ hffun⟩
  · rcases visited_or_passed h hparent with hv | htype | ⟨name, type, hparam⟩ | ⟨_, _, _, _, _, _, hblock⟩
    · exact hv
    · exact absurd ((isType_of_isFunction hfun).symm.trans htype) Bool.false_ne_true
    · simp [Tree.isFunction, hparam, Form.isFunction] at hfun
    · simp [Tree.isFunction, hblock, Form.isFunction] at hfun
  · rw [← Form.map_snd_parts] at hmem
    obtain ⟨⟨place, d⟩, hp, rfl⟩ := List.mem_map.1 hmem
    cases place with
    | param => cases f <;> simp_all [Form.parts, Form.params]
    | type =>
      have htype := (h.isType_part hf hp).2
      simp [Tree.isType, hform, Form.isType] at htype
    | node => exact absurd hform (h.node_part hf hp _ _)
    | expression | statement | field | property => cases f <;> simp_all [Form.parts, Form.isFunction]

theorem site (h : t.Linked) {c : Nat} (hd : DeclaresValue t c d) : Visited t c ∧ Site t c d := by
  obtain ⟨hout, hdecl, hcont⟩ := mem_decls.1 hd.1
  rcases visited_or_passed h hout with hv | htype | ⟨name, type, hparam⟩ | ⟨_, _, _, _, _, _, hblock⟩
  · obtain ⟨hvisited, y, hy, hbeside⟩ := (hv.beside h).resolve_left (hcont ▸ container_ne_zero h hd.1)
    rw [hcont] at hvisited hy
    refine ⟨hvisited, ?_⟩
    cases hf : t.form? d with
    | none => simp [isDeclaration, hf] at hdecl
    | some f =>
      cases f with
      | varDecl => exact .standing hf hy hbeside
      | param => exact (site_param h hd hf).2
      | funcDecl | declareFunc | typeAlias =>
        exact .hoisted (by simp [isHoisted, symbolKind, hf, SymbolKind.ofForm])
      | _ => simp [isDeclaration, hf] at hdecl
  · exact absurd ((isType_of_isDeclaration hdecl).symm.trans htype) Bool.false_ne_true
  · exact site_param h hd hparam
  · simp [isDeclaration, hblock] at hdecl

/-! ### Names -/

/-- A container is walked in a scope of its own, to which everything is added that the container declares. -/
theorem walk_container (h : t.Linked) {c : Nat} (hd : DeclaresValue t c d) :
    ∃ act, walk t c = inScope act ∧ Leaves Widens act ∧ ∀ d, DeclaresValue t c d → Declares t d act := by
  obtain ⟨hvisited, -⟩ := site h hd
  have hcont : t.isContainer c = true := by
    obtain ⟨-, -, rfl⟩ := mem_decls.1 hd.1
    exact (nearest_mem (container_ne_zero h hd.1)).2
  have hhoist : Leaves Widens (hoist t c) := .forM fun d _ => widens_declare d
  cases hf : t.form? c with
  | none => simp [isContainer, hf] at hcont
  | some f =>
    by_cases hbody : ∃ body, f.body? = some body
    · obtain ⟨body, hb⟩ := hbody
      have hparam (p : Nat) : Leaves Widens (do walkParamType t p; declare t p) :=
        .bind (.forM fun c _ => widens_walk t c) fun _ => widens_declare p
      have htype : Leaves Widens (f.type?.toList.forM (walk t)) := .forM fun c _ => widens_walk t c
      have hparts : Leaves Widens ((bodyParts t body).forM (walk t)) := .forM fun c _ => widens_walk t c
      refine ⟨_, walk_function h hf hb, ?_, fun d hd => ?_⟩
      · exact .bind (.forM fun p _ => hparam p) fun _ => htype.bind fun _ => hhoist.bind fun _ => hparts
      obtain ⟨-, hh | ⟨hg, hp, -⟩ | ⟨hform, hy, hbeside⟩⟩ := site h hd
      · refine .later (.forM fun p _ => hparam p) fun _ => .later htype fun _ => ?_
        exact .first (declares_hoist hd hh) fun _ => hparts
      · obtain rfl := Option.some.inj (hf.symm.trans hg)
        refine .first (.forM hparam hp (.later (.forM fun c _ => widens_walk t c) fun _ => declares_declare hd.2))
          fun _ => ?_
        exact htype.bind fun _ => hhoist.bind fun _ => hparts
      · rw [valueParts_of_body? hf hb] at hy
        refine .later (.forM fun p _ => hparam p) fun _ => .later htype fun _ => .later hhoist fun _ => ?_
        exact .forM (widens_walk t) hy (declares_beside h hbeside hform)
    · obtain ⟨body, hform⟩ : ∃ body, f = .module body ∨ f = .block body := by
        cases f <;> simp_all [isContainer, Form.body?]
      have hbody : valueParts t c = body := by
        rcases hform with rfl | rfl <;> simp [valueParts, hf, Form.children, Form.isType]
      have hparts : Leaves Widens (body.forM (walk t)) := .forM fun c _ => widens_walk t c
      refine ⟨_, walk_block h hf hform, hhoist.bind fun _ => hparts, fun d hd => ?_⟩
      obtain ⟨-, hh | ⟨hg, -, hfun⟩ | ⟨hvar, hy, hbeside⟩⟩ := site h hd
      · exact .first (declares_hoist hd hh) fun _ => hparts
      · obtain rfl := Option.some.inj (hf.symm.trans hg)
        rcases hform with rfl | rfl <;> simp [Form.isFunction] at hfun
      · rw [hbody] at hy
        exact .later hhoist fun _ => .forM (widens_walk t) hy (declares_beside h hbeside hvar)

/-- What is gone to is walked, and reports nothing that the whole does not report. -/
theorem Visited.walked (h : t.Linked) {x : Nat} (hx : Visited t x) : ∃ r, Grown (walk t x r).2
    (walk t t.root {}).2 := by
  have hleads := hx.2
  generalize ({} : Resolver) = r₀
  clear hx
  generalize t.root = start at hleads
  induction hleads generalizing r₀ with
  | here => exact ⟨r₀, refl_of Grown _⟩
  | part hc _ ih =>
    obtain ⟨r₁, hgrown⟩ := walk_part h hc r₀
    obtain ⟨r, hinner⟩ := ih r₁
    exact ⟨r, trans_of Grown hinner hgrown⟩

/-- If nothing was reported, two values that a container declares have different names. -/
theorem name_injective (h : t.Linked) (hnil : (resolve t).diagnostics = []) {c d' : Nat} (hd : DeclaresValue t c d)
    (hd' : DeclaresValue t c d') (hname : t.name d = t.name d') : d = d' := by
  obtain ⟨r, hgrown⟩ := (site h hd).1.walked h
  obtain ⟨act, hwalk, hwidens, hdeclares⟩ := walk_container h hd
  rw [hwalk] at hgrown
  have hopen : ({} : Names) :: r.scopes ≠ [] := List.cons_ne_nil _ _
  have hclean := hgrown.diagnostics hnil
  have hnodup := (hwidens { r with scopes := {} :: r.scopes }).nodup List.nodup_nil
  have hmem := hdeclares d hd { r with scopes := {} :: r.scopes } hopen hclean
  have hmem' := hdeclares d' hd' { r with scopes := {} :: r.scopes } hopen hclean
  exact (Prod.mk.inj (List.inj_on_of_nodup_map hnodup hmem hmem' hname)).2

end TypedScript.Binding
