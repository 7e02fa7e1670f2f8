import TypedScript.Proofs.Ast.WellFormed
import TypedScript.Proofs.Binding.Distinct
import TypedScript.Proofs.Binding.Scopes

/-!
# Names refer to the innermost declaration

While a node is walked, the open scopes are those of the containers around it. Each owns the functions, parameters
and types of its container and of the variables those that come before the node in the order in which a tree is
listed, which are those that start before it. So a name is bound to the declaration in the innermost container
that has one which is visible.

* `full`: what the scope of a container owns once it has been entered.
* `turns_walk`: the scopes before and after a node is walked.
* `resolve_innermost`: what the names in a file refer to.
-/

namespace TypedScript.Binding

open TypedScript.Ast TypedScript.Ast.Tree

variable {t : Tree} {file : Source.File} {id c d x : Nat}

/-! ### Around a part -/

theorem mem_children_of_parts {f : Form} (hf : t.form? id = some f) {place : Place} (hc : (place, c) ∈ f.parts) :
    c ∈ t.children id := by
  refine mem_children.2 ⟨f, hf, ?_⟩
  rw [← Form.map_snd_parts]
  exact List.mem_map_of_mem hc

section Enclosing

variable (h : t.Linked)
include h

theorem enclosing_part (hid : id ∈ t.reached) (hc : c ∈ t.children id) :
    enclosing t c = if t.isContainer id then id :: enclosing t id else enclosing t id := by
  rw [enclosing, h.ancestors_part hid hc, List.filter_cons]
  rfl

/-- Two parts of a node are not both around another one. -/
theorem not_above_both (hid : id ∈ t.reached) {a b : Nat} (ha : a ∈ t.children id) (hb : b ∈ t.children id)
    (hne : a ≠ b) (hax : a = x ∨ a ∈ t.ancestors x) (hbx : b = x ∨ b ∈ t.ancestors x) : False := by
  have hbelow {c e : Nat} (hc : c ∈ t.children id) (he : e ∈ t.children id) : e ∉ t.ancestors c := by
    rw [h.ancestors_part hid hc, List.mem_cons]
    have hlt := (h.part_lt he).2
    rintro (rfl | he)
    · exact Nat.lt_irrefl _ hlt
    · exact Nat.lt_asymm hlt (lt_of_mem_ancestors he)
  rcases hax with rfl | hax <;> rcases hbx with rfl | hbx
  · exact hne rfl
  · exact hbelow ha hb hbx
  · exact hbelow hb ha hax
  · rcases ancestors_linear hax hbx with heq | hab | hba
    · exact hne heq
    · exact hbelow hb ha hab
    · exact hbelow ha hb hba

end Enclosing

/-- What stands in a part of the body stands in the body. -/
theorem InBody.below {a : Nat} (h : InBody t a id) (hx : id = x ∨ id ∈ t.ancestors x) : InBody t a x := by
  rcases hx with rfl | hx
  · exact h
  · intro f body hf hb
    rcases h f body hf hb with rfl | hbody
    · exact .inr hx
    · exact .inr (ancestors_trans hbody hx)

/-- How a node stands that is walked while the scopes of some containers are open. -/
structure Ready (t : Tree) (cs : List Nat) (id : Nat) : Prop where
  outside : id ∈ t.reachedOutsideTypes
  opens : OpensBlock t id
  enclosing_eq : enclosing t id = cs
  inBody : ∀ a ∈ cs, InBody t a id

section

variable (h : t.Linked) {cs : List Nat}
include h

theorem Ready.part (hid : Ready t cs id) (hc : c ∈ valueParts t id) :
    Ready t (if t.isContainer id then id :: cs else cs) c := by
  have hreached := reached_of_outside hid.outside
  obtain ⟨hbelow, hopens⟩ := below_part h hreached hc
  obtain ⟨f, hf, -, hwhere⟩ := mem_valueParts hc
  have hbodyChild {body : Nat} (hb : f.body? = some body) : body ∈ t.children id :=
    mem_children_of_parts hf (mem_parts_of_body? hb)
  have hself : InBody t id c := by
    intro g body hg hb
    obtain rfl := Option.some.inj (hf.symm.trans hg)
    rw [valueParts_of_body? hf hb] at hc
    unfold bodyParts at hc
    split at hc
    · rename_i stmts hstmts
      have hstmt : c ∈ t.children body := mem_children.2 ⟨_, hstmts, hc⟩
      exact .inr (by simp [h.ancestors_part (h.reached_part hreached (hbodyChild hb)) hstmt])
    · exact .inl (List.mem_singleton.1 hc).symm
  have houter : ∀ a ∈ cs, InBody t a c := fun a ha g body hg hb =>
    .inr (hbelow.ancestors body ((hid.inBody a ha g body hg hb)))
  refine ⟨hbelow.outside hid.outside, hopens, ?_, ?_⟩
  · rw [← hid.enclosing_eq]
    rcases hwhere with ⟨hchild, -⟩ | ⟨body, stmts, hb, hstmts, hmem⟩
    · exact enclosing_part h hreached (mem_children.2 ⟨f, hf, hchild⟩)
    · -- the block that is the body of a function is no container
      have hchild := hbodyChild hb
      have hnot : t.isContainer body = false := by
        simpa [hb] using (isContainer_block h hreached hf (by simpa [children, hf] using hchild) hstmts).not
      rw [enclosing_part h (h.reached_part hreached hchild) (mem_children.2 ⟨_, hstmts, hmem⟩), hnot,
        if_neg (by simp),
        enclosing_part h hreached hchild]
  · split
    · exact List.forall_mem_cons.2 ⟨hself, houter⟩
    · exact houter

theorem Ready.child {f : Form} (hid : Ready t cs id) (hf : t.form? id = some f) (htype : t.isType id = false)
    (hplain : isPlain f = true) (hc : c ∈ f.children) : Ready t cs c := by
  have hreached := reached_of_outside hid.outside
  have hchild := mem_children.2 ⟨f, hf, hc⟩
  have hcont := isContainer_of_isPlain hf hplain
  refine ⟨(below_child h hreached htype hchild).outside hid.outside, fun stmts hstmts => ?_, ?_, fun a ha => ?_⟩
  · exact (isContainer_block h hreached hf hc hstmts).2 (by simp [body?_of_isPlain hplain])
  · rw [enclosing_part h hreached hchild, hcont, if_neg (by simp), hid.enclosing_eq]
  · exact (hid.inBody a ha).below (.inr (by simp [h.ancestors_part hreached hchild]))

end

/-! ### The order of nodes -/

/-- The nodes below and including one, in order, but not those in types. -/
def listing (t : Tree) (id : Nat) : List Nat := t.walk (fun id => !t.isType id) id

/-- Outside of types, the tree lists some nodes after others. -/
def Follows (t : Tree) (done nodes : List Nat) : Prop := ∃ rest, t.reachedOutsideTypes = done ++ nodes ++ rest

theorem Follows.append {done front back : List Nat} (h : Follows t done (front ++ back)) :
    Follows t done front ∧ Follows t (done ++ front) back := by
  obtain ⟨rest, h⟩ := h
  exact ⟨⟨back ++ rest, by simpa using h⟩, ⟨rest, by simpa using h⟩⟩

/-- A node is listed before its parts. -/
theorem listing_eq (h : t.Linked) {f : Form} (hf : t.form? id = some f) :
    listing t id = id :: if f.isType then [] else f.children.flatMap (listing t) := by
  have hpos : 0 < id := (form?_eq_some.1 hf).1
  rw [listing, walk_eq_cons hpos fun c hc => (h.part_lt hc).2]
  have htype : t.isType id = f.isType := by simp [Tree.isType, hf]
  have hchildren : t.children id = f.children := by simp [children, hf]
  rw [htype, hchildren]
  cases f.isType <;> rfl

theorem not_isVariable_of_isType {f : Form} (hf : t.form? id = some f) (htype : f.isType = true) :
    ¬ IsVariable t id := by
  rintro ⟨name, isConst, type, init, hvar⟩
  obtain rfl := Option.some.inj (hf.symm.trans hvar)
  exact nomatch htype

/-- There is no variable in a type. -/
theorem listing_type (h : t.Linked) (htype : t.isType id = true) : listing t id = [id] ∧ ¬ IsVariable t id := by
  unfold Tree.isType at htype
  cases hf : t.form? id with
  | none => simp [hf] at htype
  | some f =>
    have hftype : f.isType = true := by simpa [hf] using htype
    exact ⟨by rw [listing_eq h hf, if_pos hftype], not_isVariable_of_isType hf hftype⟩

/-- In a signature there are only parameters and types. -/
theorem mem_listing_of_signature (h : t.Linked) {f : Form} (hf : t.form? id = some f) {place : Place}
    (hp : (place, c) ∈ f.parts) (hplace : place = .type ∨ place = .param) :
    ∀ d ∈ listing t c, t.isType d = true ∨ ∃ name type, t.form? d = some (.param name type) := by
  intro d hd
  rcases hplace with rfl | rfl
  · have htype := (h.isType_part hf hp).2
    rw [(listing_type h htype).1] at hd
    exact .inl (List.mem_singleton.1 hd ▸ htype)
  · obtain ⟨name, type, hparam⟩ := h.param_part hf hp
    rw [listing_eq h hparam] at hd
    rcases List.mem_cons.1 hd with rfl | hd
    · exact .inr ⟨name, type, hparam⟩
    · obtain ⟨e, he, hd⟩ := List.mem_flatMap.1 hd
      have htype : (.type, e) ∈ (Form.param name type).parts := mem_parts_of_type? (Option.mem_toList.1 he)
      have he := (h.isType_part hparam htype).2
      rw [(listing_type h he).1] at hd
      exact .inl (List.mem_singleton.1 hd ▸ he)

/-- There is no variable in a signature. -/
theorem not_isVariable_of_mem_listing (h : t.Linked) {f : Form} (hf : t.form? id = some f) {place : Place} 
    (hp : (place, c) ∈ f.parts) (hplace : place = .type ∨ place = .param) : ∀ d ∈ listing t c,
    ¬ IsVariable t d := by
  rintro d hd ⟨name, isConst, type, init, hvar⟩
  rcases mem_listing_of_signature h hf hp hplace d hd with htype | ⟨name, type, hparam⟩
  · simp [Tree.isType, hvar, Form.isType] at htype
  · cases hvar.symm.trans hparam

/-- The body of a function is listed behind its signature. -/
theorem listing_function (h : t.Linked) {f : Form} (hf : t.form? id = some f) {body : Nat}
    (hb : f.body? = some body) :
    ∃ front, listing t id = front ++ (bodyParts t body).flatMap (listing t) ∧ ∀ d ∈ front, ¬ IsVariable t d := by
  have hsigned : ∀ d ∈ id :: (f.params ++ f.type?.toList).flatMap (listing t), ¬ IsVariable t d := by
    refine List.forall_mem_cons.2 ⟨?_, fun d hd => ?_⟩
    · rintro ⟨name, isConst, type, init, hvar⟩
      obtain rfl := Option.some.inj (hf.symm.trans hvar)
      cases hb
    · obtain ⟨c, hc, hd⟩ := List.mem_flatMap.1 hd
      rcases List.mem_append.1 hc with hc | hc
      · exact not_isVariable_of_mem_listing h hf (mem_parts_of_params hc) (.inr rfl) d hd
      · exact not_isVariable_of_mem_listing h hf (mem_parts_of_type? (Option.mem_toList.1 hc)) (.inl rfl) d hd
  have hlist : listing t id = (id :: (f.params ++ f.type?.toList).flatMap (listing t)) ++ listing t body := by
    rw [listing_eq h hf, Form.isType_of_isFunction (isFunction_of_body? hb), Form.children_of_body? hb]
    simp
  unfold bodyParts
  split
  · rename_i stmts hstmts
    refine ⟨(id :: (f.params ++ f.type?.toList).flatMap (listing t)) ++ [body], ?_, ?_⟩
    · rw [hlist, listing_eq h hstmts, List.append_assoc]
      rfl
    · intro d hd
      rcases List.mem_append.1 hd with hd | hd
      · exact hsigned d hd
      · rw [List.mem_singleton.1 hd]
        rintro ⟨name, isConst, type, init, hvar⟩
        cases hvar.symm.trans hstmts
  · exact ⟨_, by rw [hlist, List.flatMap_singleton], hsigned⟩

/-- No node is come to twice. -/
theorem nodup_walk (h : t.Linked) (hneat : t.IsNeat file) (enter : Nat → Bool) : (t.walk enter t.root).Nodup := by
  rcases Nat.eq_zero_or_pos t.root with hzero | hpos
  · rw [hzero, Tree.walk, walkOnto]
    exact List.nodup_nil
  have hordered : (t.walk enter t.root).Pairwise _ := pairwise_walk h hneat t.root
  have hmem : ∀ x ∈ t.walk enter t.root, x ∈ t.reached :=
    fun x hx => mem_walk.2 ((mem_walk.1 hx).mono fun _ _ => rfl)
  rw [walk_eq_cons hpos fun c hc => (h.part_lt hc).2] at hordered hmem ⊢
  have hne : ∀ x ∈ (if enter t.root then (t.children t.root).flatMap (t.walk enter) else []), x ≠ t.root := by
    intro x hx
    split at hx
    · obtain ⟨c, hc, hx⟩ := List.mem_flatMap.1 hx
      exact Nat.ne_of_lt (Nat.lt_of_le_of_lt (mem_walk.1 hx).le (h.part_lt hc).2)
    · cases hx
  refine List.nodup_cons.2
    ⟨fun hx => hne _ hx rfl, (List.pairwise_cons.1 hordered).2.imp_of_mem fun {x y} hx _ hxy => ?_⟩
  rintro rfl
  -- parts are not empty
  obtain ⟨-, hpart⟩ := h.parent_mem (hmem x (List.mem_cons_of_mem _ hx)) (hne x hx)
  obtain ⟨f, hf, hpart⟩ := mem_children.1 hpart
  have hsolid : (t.span x).start < (t.span x).stop := (hneat.node hf).solid x hpart
  rcases hxy with ⟨hlt, -⟩ | hle
  · exact Nat.lt_irrefl _ hlt
  · omega

/-- No node is listed twice. -/
theorem nodup_reachedOutsideTypes (h : t.Linked) (hneat : t.IsNeat file) : t.reachedOutsideTypes.Nodup :=
  nodup_walk h hneat _

/-- A node is listed below every node around it. -/
theorem mem_listing_of_mem_ancestors (h : t.Linked) (hd : d ∈ t.reachedOutsideTypes) {a : Nat}
    (ha : a ∈ t.ancestors d) :
    d ∈ listing t a := by
  let P := fun x => x ∈ t.reached ∧ 0 < x ∧ ∀ a ∈ t.ancestors x, x ∈ listing t a
  have hdown := mem_walk.1 hd
  have hroot : P t.root := by
    refine ⟨mem_walk.2 (.here hdown.pos), hdown.pos, fun a ha => ?_⟩
    rw [ancestors, dif_neg (by simp [h.parent_root])] at ha
    cases ha
  refine (hdown.induct (P := P) ?_ hroot).2.2 a ha
  rintro id c ⟨hid, hpos, hlisted⟩ henter hc
  obtain ⟨hcpos, hlt⟩ := h.part_lt hc
  refine ⟨h.reached_part hid hc, hcpos, fun a ha => mem_walk.2 ?_⟩
  rw [h.ancestors_part hid hc] at ha
  rcases List.mem_cons.1 ha with rfl | ha
  · exact .part henter hc hlt (.here hcpos)
  · exact (mem_walk.1 (hlisted a ha)).snoc henter hc hlt hcpos

/-- What a container declares is not listed before it. -/
theorem Follows.fresh (h : t.Linked) (hneat : t.IsNeat file) {done : List Nat} (hc : Follows t done (listing t c))
    (hd : d ∈ t.decls c) : d ∉ done := by
  obtain ⟨rest, hall⟩ := hc
  have hnodup := nodup_reachedOutsideTypes h hneat
  rw [hall, List.append_assoc] at hnodup
  obtain ⟨hout, -, hcont⟩ := mem_decls.1 hd
  have hancestor : c ∈ t.ancestors d := by
    have hne := container_ne_zero h hd
    rw [← hcont] at hne ⊢
    exact (nearest_mem hne).1
  have hlisted := mem_listing_of_mem_ancestors h hout hancestor
  exact fun hdone => (List.disjoint_of_nodup_append hnodup) hdone (List.mem_append_left _ hlisted)

/-- The variables that are listed before a name are those that start before it. -/
theorem Follows.mem_iff (h : t.Linked) (hneat : t.IsNeat file) {done : List Nat} {name : String}
    (hx : t.form? x = some (.ident name)) (hfollows : Follows t done [x]) (hd : IsVariable t d)
    (hmem : d ∈ t.reachedOutsideTypes) : d ∈ done ↔ (t.span d).start < (t.span x).start := by
  obtain ⟨rest, hall⟩ := hfollows
  have hordered : t.reachedOutsideTypes.Pairwise _ := pairwise_walk h hneat t.root
  rw [hall, List.append_assoc] at hordered
  rw [hall] at hmem
  obtain ⟨-, hrest, hdone⟩ := List.pairwise_append.1 hordered
  obtain ⟨dname, isConst, type, init, hform⟩ := hd
  have hsolid : (t.span d).start < (t.span d).stop := (hneat.node hform).start_lt nofun
  have hsolid' : (t.span x).start < (t.span x).stop := (hneat.node hx).start_lt nofun
  constructor
  · intro hin
    rcases hdone d hin x (by simp) with ⟨hlt, hdown⟩ | hle
    · cases hdown with
      | here _ => exact absurd hlt (Nat.lt_irrefl _)
      | @part _ p _ _ hp _ hdown =>
        have hpart : p ∈ (Form.varDecl dname isConst type init).children := by simpa [children, hform] using hp
        exact Nat.lt_of_lt_of_le ((hneat.node hform).leads rfl p hpart) (hneat.down hdown).1
    · omega
  · intro hlt
    rcases List.mem_append.1 hmem with hin | hafter
    · rcases List.mem_append.1 hin with hin | heq
      · exact hin
      · obtain rfl := List.mem_singleton.1 heq
        exact absurd hlt (Nat.lt_irrefl _)
    · rcases (List.pairwise_append.1 hrest).2.2 x (by simp) d hafter with ⟨hlt', hdown⟩ | hle
      · cases hdown with
        | here _ => exact absurd hlt' (Nat.lt_irrefl _)
        | part _ hp _ _ => simp [children, hx, Form.children] at hp
      · omega

/-! ### The scopes of containers -/

/-- What the scope of a container owns once the container has been entered and the nodes in question have been
walked: of the variables those that are among these. -/
def full (t : Tree) (done : List Nat) (c : Nat) : Range :=
  ⟨fun d => DeclaresValue t c d ∧ (IsVariable t d → d ∈ done), DeclaresType t c⟩

theorem full_append {done nodes : List Nat} (h : ∀ d ∈ nodes, ¬ IsVariable t d) : full t (done ++ nodes) =
    full t done := by
  funext c
  refine Range.ext (fun d => and_congr_right fun _ => forall_congr' fun hd => ?_) fun d => Iff.rfl
  rw [List.mem_append]
  exact or_iff_left fun hmem => h d hmem hd

/-- With its parameters, its functions and its types a container has been entered. -/
theorem add_eq_full (h : t.Linked) {f : Form} (hid : id ∈ t.reachedOutsideTypes) (hf : t.form? id = some f)
    (hcont : t.isContainer id = true) {done : List Nat} (hfresh : ∀ d ∈ t.decls id, IsVariable t d → d ∉ done) :
    Range.empty.add t (f.params ++ (t.decls id).filter (isHoisted t)) = full t done id := by
  have hparam {p : Nat} (hp : p ∈ f.params) : p ∈ t.decls id ∧ symbolKind t p = .param ∧ ¬ IsVariable t p := by
    have hfun : f.isFunction = true := by cases f <;> simp_all [isContainer, Form.params, Form.isFunction]
    obtain ⟨name, type, hform⟩ := h.param_part hf (mem_parts_of_params hp)
    refine ⟨mem_decls_param h hid hf hfun hp, by simp [symbolKind, hform, SymbolKind.ofForm], ?_⟩
    rintro ⟨name, isConst, type, init, hvar⟩
    cases hvar.symm.trans hform
  have hvariable {d : Nat} (hd : isHoisted t d = true) : ¬ IsVariable t d := by
    rintro ⟨name, isConst, type, init, hvar⟩
    cases isConst <;> simp [isHoisted, symbolKind, hvar, SymbolKind.ofForm] at hd
  apply Range.ext
  · intro d
    change False ∨ d ∈ _ ∧ symbolKind t d ≠ .type ↔ (d ∈ t.decls id ∧ symbolKind t d ≠ .type) ∧
      (IsVariable t d → d ∈ done)
    rw [false_or, List.mem_append, List.mem_filter]
    constructor
    · rintro ⟨hp | ⟨hd, hhoisted⟩, hkind⟩
      · obtain ⟨hd, -, hvar⟩ := hparam hp
        exact ⟨⟨hd, hkind⟩, fun h => (hvar h).elim⟩
      · exact ⟨⟨hd, hkind⟩, fun h => (hvariable hhoisted h).elim⟩
    · rintro ⟨⟨hd, hkind⟩, hdone⟩
      refine ⟨?_, hkind⟩
      obtain ⟨-, hhoisted | ⟨hg, hp, -⟩ | ⟨hvar, -, -⟩⟩ := site h ⟨hd, hkind⟩
      · exact .inr ⟨hd, hhoisted⟩
      · obtain rfl := Option.some.inj (hf.symm.trans hg)
        exact .inl hp
      · exact (hfresh d hd ⟨_, _, _, _, hvar⟩ (hdone ⟨_, _, _, _, hvar⟩)).elim
  · intro d
    change False ∨ d ∈ _ ∧ symbolKind t d = .type ↔ d ∈ t.decls id ∧ symbolKind t d = .type
    rw [false_or, List.mem_append, List.mem_filter]
    refine and_congr_left fun hkind => ⟨?_, fun hd => .inr ⟨hd, by simp [isHoisted, hkind]⟩⟩
    rintro (hp | ⟨hd, -⟩)
    · exact (hparam hp).1
    · exact hd

theorem sorted_ancestors (t : Tree) (x : Nat) : (t.ancestors x).Pairwise (· < ·) := by
  fun_induction ancestors t x with
  | case1 x hx ih => exact List.pairwise_cons.2 ⟨fun a ha => lt_of_mem_ancestors ha, ih⟩
  | case2 x hx => exact List.Pairwise.nil

/-- A variable is added to what its container owns, and to nothing else. -/
theorem map_full_variable (h : t.Linked) {done done' : List Nat} (hid : id ∈ t.reachedOutsideTypes)
    (hvar : IsVariable t id) (hdone : ∀ d, IsVariable t d → (d ∈ done' ↔ d ∈ done ∨ d = id)) : ∃ cs,
      enclosing t id = t.container id :: cs ∧
        (full t done (t.container id)).add t [id] :: cs.map (full t done) = (enclosing t id).map
          (full t done') := by
  obtain ⟨name, isConst, type, init, hform⟩ := hvar
  have hdecl : id ∈ t.decls (t.container id) := mem_decls.2 ⟨hid, by simp [isDeclaration, hform], rfl⟩
  have hkind : symbolKind t id ≠ .type := by cases isConst <;> simp [symbolKind, hform, SymbolKind.ofForm]
  have hhead : (enclosing t id).head? = some (t.container id) := by
    have hne := container_ne_zero h hdecl
    rw [enclosing, List.head?_filter]
    rw [container, nearest_eq_find?_ancestors] at hne ⊢
    cases hfind : (t.ancestors id).find? t.isContainer with
    | none => simp [hfind] at hne
    | some a => rfl
  obtain ⟨cs, hcs⟩ : ∃ cs, enclosing t id = t.container id :: cs := ⟨_, List.eq_cons_of_mem_head? hhead⟩
  refine ⟨cs, hcs, ?_⟩
  have hsorted := (sorted_ancestors t id).filter t.isContainer
  change (enclosing t id).Pairwise _ at hsorted
  rw [hcs] at hsorted ⊢
  rw [List.map_cons]
  congr 1
  · apply Range.ext
    · intro d
      change (DeclaresValue t _ d ∧ _) ∨ d ∈ [id] ∧ symbolKind t d ≠ .type ↔ DeclaresValue t _ d ∧ _
      constructor
      · rintro (⟨hd, hbefore⟩ | ⟨hd, -⟩)
        · exact ⟨hd, fun hv => (hdone d hv).2 (.inl (hbefore hv))⟩
        · obtain rfl := List.mem_singleton.1 hd
          exact ⟨⟨hdecl, hkind⟩, fun hv => (hdone d hv).2 (.inr rfl)⟩
      · rintro ⟨hd, hafter⟩
        by_cases heq : d = id
        · exact .inr ⟨List.mem_singleton.2 heq, heq ▸ hkind⟩
        · exact .inl ⟨hd, fun hv => ((hdone d hv).1 (hafter hv)).resolve_right heq⟩
    · intro d
      change DeclaresType t _ d ∨ d ∈ [id] ∧ symbolKind t d = .type ↔ DeclaresType t _ d
      refine or_iff_left fun hd => hkind ?_
      rw [← List.mem_singleton.1 hd.1]
      exact hd.2
  · refine List.map_congr_left fun c hc => Range.ext (fun d => and_congr_right fun hd => ?_) fun d => Iff.rfl
    refine forall_congr' fun hv => ?_
    have hne : d ≠ id := by
      rintro rfl
      exact Nat.ne_of_lt ((List.pairwise_cons.1 hsorted).1 c hc) (mem_decls.1 hd.1).2.2
    rw [hdone d hv]
    exact (or_iff_left hne).symm

/-! ### Types -/

/-- The scopes show below the node the types that are declared around it, where that is not in the parameters or
the result type of the declaring function. -/
def Shows (t : Tree) (id : Nat) (os : List Range) : Prop := List.Forall₂
  (fun c o => ∀ x, id = x ∨ id ∈ t.ancestors x → ∀ d, o.types d ↔ DeclaresType t c d ∧ InBody t c x)
  (enclosing t id) os

theorem forall₂_trans {α β γ : Type} {R : α → β → Prop} {S : β → γ → Prop} {T : α → γ → Prop}
    {xs : List α} {ys : List β} {zs : List γ} (h : List.Forall₂ R xs ys) (h' : List.Forall₂ S ys zs)
    (hT : ∀ x y z, R x y → S y z → T x z) :
    List.Forall₂ T xs zs := by
  induction h generalizing zs with
  | nil =>
    cases h'
    exact .nil
  | cons hr _ ih =>
    cases h' with
    | cons hs h' => exact .cons (hT _ _ _ hr hs) (ih h')

section Types

variable (h : t.Linked) {os : List Range}
include h

theorem Shows.part (hos : Shows t id os) (hid : id ∈ t.reached) (hcont : t.isContainer id = false)
    (hc : c ∈ t.children id) :
    Shows t c os := by
  unfold Shows at hos ⊢
  rw [enclosing_part h hid hc, hcont, if_neg (by simp)]
  refine hos.imp fun a o ho x hx => ho x ?_
  have hancestors := h.ancestors_part hid hc
  rcases hx with rfl | hx
  · exact .inr (by simp [hancestors])
  · exact .inr (ancestors_trans (by simp [hancestors]) hx)

theorem turns_paramType {p : Nat} {name : String} {type : Option Nat} (hp : p ∈ t.reached)
    (hform : t.form? p = some (.param name type)) (hos : Shows t p os)
    (hwalk : ∀ e < p, e ∈ t.reached → t.isType e = true → Shows t e os → Turns t os os (walk t e)) :
    Turns t os os (walkParamType t p) := by
  rw [walkParamType, hform]
  refine .forM_same fun e he => ?_
  have hpart : (.type, e) ∈ (Form.param name type).parts := mem_parts_of_type? (Option.mem_toList.1 he)
  obtain ⟨hlt, htype⟩ := h.isType_part hform hpart
  have hchild : e ∈ t.children p := mem_children.2 ⟨_, hform, he⟩
  exact hwalk e hlt (h.reached_part hp hchild) htype (hos.part h hp (by simp [isContainer, hform]) hchild)

/-- The names in a type are bound as the scopes show. -/
theorem turns_type (hid : id ∈ t.reached) (htype : t.isType id = true) (hos : Shows t id os) : Turns t os os
    (walk t id) := by
  induction id using Nat.strongRecOn with
  | _ id ih =>
    obtain ⟨f, hf, hftype⟩ := exists_form_of_isType htype
    have hcont : t.isContainer id = false :=
      Bool.eq_false_iff.2 fun hcont => nomatch (isType_of_isContainer hcont).symm.trans htype
    have hchild {place : Place} {c : Nat} (hc : (place, c) ∈ f.parts) : c ∈ t.children id :=
      mem_children_of_parts hf hc
    have hpart {c : Nat} (hc : (.type, c) ∈ f.parts) : Turns t os os (walk t c) := by
      obtain ⟨hlt, htype⟩ := h.isType_part hf hc
      exact ih c hlt (h.reached_part hid (hchild hc)) htype (hos.part h hid hcont (hchild hc))
    cases f with
    | typeName name =>
      rw [walk]
      simp only [hf]
      refine turns_resolveType (by simp [Tree.name, hf, Form.name]) fun d r hr hd => ?_
      have hlists := forall₂_trans hos hr.types
        (T := fun c s => Lists t (fun e => DeclaresType t c e ∧ InBody t c id) s.types)
        fun c o s ho hs => by rwa [funext fun d => propext (ho id (.inl rfl) d)] at hs
      refine (innermost_of_lookupIn hlists hd).mono ?_ ?_
      · exact fun c _ e he => ⟨⟨he.1, he.2.2⟩, he.2.1⟩
      · exact fun c _ he => ⟨he.1.1, he.2, he.1.2⟩
    | typeObject fields =>
      rw [walk_plain h hf rfl]
      refine .forM_same fun c hc => ?_
      have hfield : (.field, c) ∈ (Form.typeObject fields).parts := List.mem_map_of_mem hc
      obtain ⟨hlt, htype⟩ := h.isType_field hf hfield
      exact ih c hlt (h.reached_part hid (hchild hfield)) htype (hos.part h hid hcont (hchild hfield))
    | typeField name type =>
      rw [walk_plain h hf rfl]
      exact .forM_same fun c hc => hpart (by simpa [Form.parts, Form.children] using hc)
    | typeFunc params result =>
      rw [walk_signature h hf rfl (.inr ⟨params, rfl⟩)]
      refine .bind (.forM_same fun p hp => ?_) (hpart (by simp [Form.parts]))
      have hp := mem_parts_of_params hp
      obtain ⟨name, type, hform⟩ := h.param_part hf hp
      have hlt := (h.fits hf _ hp).2.1
      refine turns_paramType h (h.reached_part hid (hchild hp)) hform (hos.part h hid hcont (hchild hp)) fun e he =>
        ?_
      exact ih e (Nat.lt_trans he hlt)
    | _ => simp [Form.isType] at hftype

end Types

/-! ### The walk -/

section Walk

variable (h : t.Linked) {cs done : List Nat}

/-- Around a node that is walked, the scopes show all types. -/
theorem Ready.shows (hid : Ready t cs id) (done : List Nat) : Shows t id (cs.map (full t done)) := by
  rw [Shows, hid.enclosing_eq, List.forall₂_map_right_iff, List.forall₂_same]
  exact fun a ha x hx d => (and_iff_left ((hid.inBody a ha).below hx)).symm

include h

/-- In its parameters and its result type, a function shows no types of its own. -/
theorem Ready.shows_signature (hneat : t.IsNeat file) (hid : Ready t cs id) {f : Form}
    (hf : t.form? id = some f) {body : Nat} (hb : f.body? = some body) {place : Place} (hc : (place, c) ∈ f.parts)
    (hplace : place = .type ∨ place = .param) (done : List Nat) {o : Range} (ho : ∀ d, ¬ o.types d) : Shows t c
    (o :: cs.map (full t done)) := by
  have hreached := reached_of_outside hid.outside
  have hcont : t.isContainer id = true :=
    isContainer_of_isFunction (by simp [Tree.isFunction, hf, isFunction_of_body? hb])
  have hchildren : t.children id = f.children := by simp [children, hf]
  have hc' : c ∈ t.children id := mem_children_of_parts hf hc
  have hb' : body ∈ t.children id := mem_children_of_parts hf (mem_parts_of_body? hb)
  have hne : c ≠ body := by
    rintro rfl
    have hdisjoint : ∀ e ∈ f.params ++ f.type?.toList, (t.span e).stop ≤ (t.span c).start := by
      have hordered := (hneat.node hf).ordered
      rw [Form.children_of_body? hb, List.pairwise_append] at hordered
      exact fun e he => hordered.2.2 e he c (List.mem_singleton_self c)
    have hmem : c ∈ f.params ++ f.type?.toList := by
      rcases hplace with rfl | rfl <;> cases f <;> simp_all [Form.parts, Form.params, Form.type?, Form.body?]
    have hsolid : (t.span c).start < (t.span c).stop := (hneat.node hf).solid c (hchildren ▸ hc')
    have := hdisjoint c hmem
    omega
  rw [Shows, enclosing_part h hreached hc', hcont, if_pos rfl, hid.enclosing_eq]
  refine .cons (fun x hx d => iff_of_false (ho d) ?_) ?_
  · rintro ⟨-, hin⟩
    exact not_above_both h hreached hc' hb' hne hx (hin f body hf hb)
  · rw [List.forall₂_map_right_iff, List.forall₂_same]
    refine fun a ha x hx d => (and_iff_left ((hid.inBody a ha).below ?_)).symm
    have hancestors := h.ancestors_part hreached hc'
    rcases hx with rfl | hx
    · exact .inr (by simp [hancestors])
    · exact .inr (ancestors_trans (by simp [hancestors]) hx)

/-- While the node is walked, its variables are added to what their containers own. -/
def Adds (t : Tree) (id : Nat) : Prop := ∀ cs done, Ready t cs id → Follows t done (listing t id) →
  Turns t (cs.map (full t done)) (cs.map (full t (done ++ listing t id))) (walk t id)

omit h in
theorem adds_parts (cs : List Nat) {parts : List Nat} (hparts : ∀ c ∈ parts, Adds t c ∧ Ready t cs c)
    (hdone : Follows t done (parts.flatMap (listing t))) :
    Turns t (cs.map (full t done)) (cs.map (full t (done ++ parts.flatMap (listing t)))) (parts.forM (walk t)) := by
  induction parts generalizing done with
  | nil =>
    rw [List.flatMap_nil, List.append_nil]
    exact .pure
  | cons c parts ih =>
    obtain ⟨⟨hc, hready⟩, hparts⟩ := List.forall_mem_cons.1 hparts
    obtain ⟨hfirst, hrest⟩ := hdone.append
    have := (hc cs done hready hfirst).bind (ih hparts hrest)
    rwa [List.append_assoc] at this

variable {f : Form} (hf : t.form? id = some f)
include hf

/-- The parts of a container are walked in a scope of their own, which has been filled before. -/
theorem turns_inside (hneat : t.IsNeat file) (ih : ∀ c < id, Adds t c) (hid : Ready t cs id)
    (hdone : Follows t done (listing t id)) (hcont : t.isContainer id = true) {front parts : List Nat}
    (hfront : listing t id = front ++ parts.flatMap (listing t)) (hnone : ∀ d ∈ front, ¬ IsVariable t d)
    (hvalue : ∀ c ∈ parts, c ∈ valueParts t id) :
    Turns t (Range.empty.add t (f.params ++ (t.decls id).filter (isHoisted t)) :: cs.map (full t done))
      (full t (done ++ listing t id) id :: cs.map (full t (done ++ listing t id))) (parts.forM (walk t)) := by
  have hfresh : ∀ d ∈ t.decls id, IsVariable t d → d ∉ done ++ front := fun d hd hvar hmem =>
    (List.mem_append.1 hmem).elim (hdone.fresh h hneat hd) fun hmem => hnone d hmem hvar
  have hfull : full t done = full t (done ++ front) := (full_append hnone).symm
  rw [add_eq_full h hid.outside hf hcont hfresh, hfull, hfront, ← List.append_assoc]
  rw [hfront] at hdone
  refine adds_parts (id :: cs) (fun c hc => ?_) hdone.append.2
  have hready := hid.part h (hvalue c hc)
  rw [hcont, if_pos rfl] at hready
  exact ⟨ih c (below_part h (reached_of_outside hid.outside) (hvalue c hc)).1.lt, hready⟩

theorem adds_block (hneat : t.IsNeat file) (ih : ∀ c < id, Adds t c) {body : List Nat}
    (hform : f = .module body ∨ f = .block body) : Adds t id := by
  intro cs done hid hdone
  rw [walk_block h hf hform]
  have hcont : t.isContainer id = true := by
    rcases hform with rfl | rfl
    · simp [isContainer, hf]
    · exact hid.opens body hf
  have hvar : ¬ IsVariable t id := by
    rintro ⟨name, isConst, type, init, hvar⟩
    rcases hform with rfl | rfl <;> cases hvar.symm.trans hf
  have hlist : listing t id = [id] ++ body.flatMap (listing t) := by
    rw [listing_eq h hf]
    rcases hform with rfl | rfl <;> rfl
  have hinside := turns_inside h hf hneat ih hid hdone hcont hlist (by simpa using hvar) fun c hc => by
    rcases hform with rfl | rfl <;> simpa [valueParts, hf, Form.children, Form.isType] using hc
  have hparams : f.params = [] := by rcases hform with rfl | rfl <;> rfl
  rw [hparams, List.nil_append] at hinside
  exact .inScope (.bind (turns_hoist .empty _ id) hinside)

theorem adds_function (hneat : t.IsNeat file) (ih : ∀ c < id, Adds t c) {body : Nat} (hb : f.body? = some body) :
    Adds t id := by
  intro cs done hid hdone
  rw [walk_function h hf hb]
  have hreached := reached_of_outside hid.outside
  have hcont : t.isContainer id = true :=
    isContainer_of_isFunction (by simp [Tree.isFunction, hf, isFunction_of_body? hb])
  obtain ⟨front, hfront, hnone⟩ := listing_function h hf hb
  have hsignature {place : Place} {c : Nat} (hc : (place, c) ∈ f.parts) (hplace : place = .type ∨ place = .param)
      (ds : List Nat) (hds : ∀ d ∈ ds, d ∈ f.params) :
      Shows t c (Range.empty.add t ds :: cs.map (full t done)) := by
    refine hid.shows_signature h hneat hf hb hc hplace done fun d hd => ?_
    obtain ⟨hmem, hkind⟩ := hd.resolve_left not_false
    obtain ⟨name, type, hparam⟩ := h.param_part hf (mem_parts_of_params (hds d hmem))
    simp [symbolKind, hparam, SymbolKind.ofForm] at hkind
  have hparams := Turns.forM (t := t) (S := fun before => Range.empty.add t before :: cs.map (full t done))
    (f := fun p => do walkParamType t p; declare t p)
    fun before p after (heq : f.params = before ++ p :: after) => by
      have hp := mem_parts_of_params (f := f) (c := p) (by simp [heq])
      obtain ⟨name, type, hform⟩ := h.param_part hf hp
      have hshows := hsignature hp (.inr rfl) before fun d hd => by simp [heq, hd]
      refine .bind (turns_paramType h (h.reached_part hreached (mem_children_of_parts hf hp)) hform hshows ?_) ?_
      · exact fun e _ hreached htype hos => turns_type h hreached htype hos
      · exact Range.add_add .empty before [p] ▸ turns_declare _ _ p
  rw [Range.add_nil] at hparams
  have hinside := turns_inside h hf hneat ih hid hdone hcont hfront hnone fun c hc => by
    rwa [valueParts_of_body? hf hb]
  rw [← Range.add_add] at hinside
  refine .inScope (.bind hparams (.bind (.forM_same fun c hc => ?_) (.bind (turns_hoist _ _ id) hinside)))
  have hpart := mem_parts_of_type? (Option.mem_toList.1 hc)
  refine turns_type h (h.reached_part hreached (mem_children_of_parts hf hpart)) (h.isType_part hf hpart).2 ?_
  exact hsignature hpart (.inl rfl) f.params fun _ hd => hd

theorem adds_declareFunc {name : String} {params : List Nat} {result : Nat}
    (hform : f = .declareFunc name params result) :
    Adds t id := by
  intro cs done hid hdone
  subst hform
  have hreached := reached_of_outside hid.outside
  have hresult := mem_parts_of_type? (f := .declareFunc name params result) (c := result) rfl
  have hshows {place : Place} {c : Nat} (hc : (place, c) ∈ (Form.declareFunc name params result).parts) :
      Shows t c (cs.map (full t done)) :=
    (hid.shows done).part h hreached (by simp [isContainer, hf]) (mem_children_of_parts hf hc)
  have hnone : ∀ d ∈ listing t id, ¬ IsVariable t d := by
    rw [listing_eq h hf]
    refine List.forall_mem_cons.2 ⟨?_, fun d hd => ?_⟩
    · rintro ⟨name, isConst, type, init, hvar⟩
      cases hvar.symm.trans hf
    · obtain ⟨c, hc, hdc⟩ := List.mem_flatMap.1 hd
      rcases List.mem_append.1 hc with hc | hc
      · exact not_isVariable_of_mem_listing h hf (mem_parts_of_params hc) (.inr rfl) d hdc
      · obtain rfl := List.mem_singleton.1 hc
        exact not_isVariable_of_mem_listing h hf hresult (.inl rfl) d hdc
  rw [walk_signature h hf rfl (.inl ⟨name, params, rfl⟩), full_append hnone]
  refine .bind (.forM_same fun p hp => ?_) ?_
  · have hp := mem_parts_of_params (f := .declareFunc name params result) hp
    obtain ⟨pname, type, hparam⟩ := h.param_part hf hp
    refine turns_paramType h (h.reached_part hreached (mem_children_of_parts hf hp)) hparam (hshows hp) ?_
    exact fun e _ hreached htype hos => turns_type h hreached htype hos
  · refine turns_type h (h.reached_part hreached (mem_children_of_parts hf hresult)) (h.isType_part hf hresult).2 ?_
    exact hshows hresult

/-- A variable is declared behind its type and before its initializer. -/
theorem adds_varDecl (ih : ∀ c < id, Adds t c) {name : String} {isConst : Bool} {type : Option Nat} {init : Nat}
    (hform : f = .varDecl name isConst type init) : Adds t id := by
  intro cs done hid hdone
  subst hform
  have hreached := reached_of_outside hid.outside
  have hcont : t.isContainer id = false := by simp [isContainer, hf]
  have htype {c : Nat} (hc : c ∈ type.toList) : (.type, c) ∈ (Form.varDecl name isConst type init).parts :=
    mem_parts_of_type? (Option.mem_toList.1 hc)
  have hnone : ∀ d ∈ type.toList.flatMap (listing t), ¬ IsVariable t d := by
    intro d hd
    obtain ⟨c, hc, hd⟩ := List.mem_flatMap.1 hd
    exact not_isVariable_of_mem_listing h hf (htype hc) (.inl rfl) d hd
  have hlist : listing t id = id :: type.toList.flatMap (listing t) ++ listing t init := by
    rw [listing_eq h hf]
    simp [Form.isType, Form.children]
  generalize hfront : id :: type.toList.flatMap (listing t) = front at hlist
  have hadded : ∀ d, IsVariable t d → (d ∈ done ++ front ↔ d ∈ done ∨ d = id) := fun d hd => by
    rw [← hfront, List.mem_append, List.mem_cons]
    exact or_congr_right (or_iff_left fun hmem => hnone d hmem hd)
  obtain ⟨rest, hcs, hmap⟩ := map_full_variable h hid.outside ⟨_, _, _, _, hf⟩ hadded
  rw [hid.enclosing_eq] at hcs hmap
  have hinit : init ∈ valueParts t id := by simp [valueParts, hf]
  have hready := hid.part h hinit
  rw [hcont, if_neg (by simp)] at hready
  rw [hlist] at hdone
  rw [walk_varDecl h hf rfl, hlist, ← List.append_assoc]
  have hdeclare : Turns t (cs.map (full t done)) (cs.map (full t (done ++ front))) (declare t id) := by
    rw [← hmap, hcs]
    exact turns_declare _ _ id
  refine .bind (.forM_same fun c hc => ?_) (.bind hdeclare ?_)
  · refine turns_type h (h.reached_part hreached (mem_children_of_parts hf (htype hc)))
      (h.isType_part hf (htype hc)).2 ?_
    exact (hid.shows done).part h hreached hcont (mem_children_of_parts hf (htype hc))
  · exact ih init (below_part h hreached hinit).1.lt cs _ hready hdone.append.2

/-- A name refers to what it should, because the variables in the open scopes are those that start before it. -/
theorem adds_ident (hneat : t.IsNeat file) {name : String} (hform : f = .ident name) : Adds t id := by
  intro cs done hid hdone
  subst hform
  have hvar : ¬ IsVariable t id := by
    rintro ⟨name, isConst, type, init, hvar⟩
    exact nomatch hvar.symm.trans hf
  have hlist : listing t id = [id] := listing_eq h hf
  rw [hlist] at hdone ⊢
  rw [full_append (by simpa using hvar), walk]
  simp only [hf]
  refine turns_resolveValue (by simp [Tree.name, hf, Form.name]) fun d r hr hd hpremature => ?_
  rw [RefersTo, hid.enclosing_eq]
  refine (innermost_of_lookupIn (List.forall₂_map_left_iff.1 hr.values) hd).mono ?_ ?_
  · rintro c - e ⟨he, hname, hvisible⟩
    exact ⟨⟨he, fun hv => (hdone.mem_iff h hneat hf hv (mem_decls.1 he.1).1).2 (hvisible hv).1⟩, hname⟩
  · rintro c - ⟨⟨he, hbefore⟩, hname⟩
    refine ⟨he, hname, fun hv => ⟨(hdone.mem_iff h hneat hf hv (mem_decls.1 he.1).1).1 (hbefore hv), fun hin => ?_⟩⟩
    obtain ⟨name, isConst, type, init, hform⟩ := hv
    exact deferred_of_isPremature hform hpremature hin

theorem adds_plain (ih : ∀ c < id, Adds t c) (htype : t.isType id = false) (hplain : isPlain f = true) :
    Adds t id := by
  intro cs done hid hdone
  have hvar : ¬ IsVariable t id := by
    rintro ⟨name, isConst, type, init, hvar⟩
    obtain rfl := Option.some.inj (hf.symm.trans hvar)
    exact nomatch hplain
  have hftype : f.isType = false := by simpa [Tree.isType, hf] using htype
  have hlist : listing t id = [id] ++ f.children.flatMap (listing t) := by
    rw [listing_eq h hf, hftype]
    rfl
  rw [hlist] at hdone ⊢
  have hfull : full t done = full t (done ++ [id]) := (full_append (by simpa using hvar)).symm
  rw [walk_plain h hf hplain, hfull, ← List.append_assoc]
  refine adds_parts cs (fun c hc => ⟨ih c (h.part_lt (mem_children.2 ⟨f, hf, hc⟩)).2, ?_⟩) hdone.append.2
  exact hid.child h hf htype hplain hc

omit hf

theorem adds_type (htype : t.isType id = true) : Adds t id := by
  intro cs done hid _
  obtain ⟨hlist, hvar⟩ := listing_type h htype
  rw [hlist, full_append (by simpa using hvar)]
  exact turns_type h (reached_of_outside hid.outside) htype (hid.shows done)

/-- Every node adds its variables when it is walked. -/
theorem adds_walk (hneat : t.IsNeat file) (id : Nat) : Adds t id := by
  induction id using Nat.strongRecOn with
  | _ id ih =>
    by_cases htype : t.isType id = true
    · exact adds_type h htype
    rw [Bool.not_eq_true] at htype
    intro cs done hid hdone
    have hreached := reached_of_outside hid.outside
    have hroot := h.root_module.resolve_left (Nat.ne_of_gt (mem_walk.1 hreached).pos)
    obtain ⟨f, hf⟩ := h.exists_form hroot hreached
    rcases form_shape f with ⟨body, hform⟩ | ⟨body, hb⟩ | ⟨result, hr, ⟨name, params, rfl⟩ | ⟨params, rfl⟩⟩ |
      ⟨name, isConst, type, init, hform⟩ | ⟨name, hform⟩ | ⟨name, rfl⟩ | hplain
    · exact adds_block h hf hneat ih hform cs done hid hdone
    · exact adds_function h hf hneat ih hb cs done hid hdone
    · exact adds_declareFunc h hf rfl cs done hid hdone
    · simp [Tree.isType, hf, Form.isType] at htype
    · exact adds_varDecl h hf ih hform cs done hid hdone
    · exact adds_ident h hf hneat hform cs done hid hdone
    · simp [Tree.isType, hf, Form.isType] at htype
    · exact adds_plain h hf ih htype hplain cs done hid hdone

end Walk

/-! ### What names refer to -/

/-- If nothing is reported for a file, every name in it refers to the innermost declaration that it can refer to. -/
theorem resolve_innermost (file : Source.File) (maxErrors : Nat)
    (hnil : (resolve (parse file maxErrors).tree).diagnostics = []) :
    let t := (parse file maxErrors).tree
    (∀ x ∈ t.reached, ∀ name, t.form? x = some (.ident name) →
      ∃ d, (resolve t).table.decl? x = some d ∧ RefersTo t name x d) ∧
    (∀ x ∈ t.reached, ∀ name, t.form? x = some (.typeName name) → Ty.isPrimitiveName name = false →
      ∃ d, (resolve t).table.typeDecl? x = some d ∧ TypeRefersTo t name x d) := by
  have h := linked_parse file maxErrors
  have hneat : IsNeat (parse file maxErrors).tree file := neat_parse file maxErrors
  obtain ⟨hpos, -⟩ := exists_module_parse file maxErrors
  generalize (parse file maxErrors).tree = t at *
  have hready : Ready t [] t.root := by
    refine ⟨mem_walk.2 (.here hpos), opensBlock_root h, ?_, nofun⟩
    rw [enclosing, ancestors, dif_neg (by simp [h.parent_root])]
    rfl
  have hend := (adds_walk h hneat t.root [] [] hready ⟨[], (List.append_nil _).symm⟩).meets {}
    ⟨.nil, .nil, fun x d hx => by simp at hx, fun x d hx => by simp at hx⟩ hnil
  have hname {f : Form} {x : Nat} (hf : t.form? x = some f) : t.name x = f.name := by simp [Tree.name, hf]
  constructor
  · intro x hx name hf
    have hd := Std.TreeMap.getElem?_eq_some_getElem ((covered_walk h (mem_walk.1 hx) {} hnil).value name hf)
    have hrefers := hend.refs x _ hd
    rw [hname hf] at hrefers
    exact ⟨_, hd, hrefers⟩
  · intro x hx name hf hprimitive
    have hd := Std.TreeMap.getElem?_eq_some_getElem
      ((covered_walk h (mem_walk.1 hx) {} hnil).type name hf hprimitive)
    have hrefers := hend.typeRefs x _ hd
    rw [hname hf] at hrefers
    exact ⟨_, hd, hrefers⟩

theorem form?_eq_ident {name : String} (h : (t.form? x).map (fun f => (f.ordinal, f.name)) = some (13, name)) :
    t.form? x = some (.ident name) := by
  obtain ⟨f, hf, hsame⟩ := Option.map_eq_some_iff.1 h
  obtain ⟨hordinal, rfl⟩ := Prod.mk.inj hsame
  rw [hf]
  cases f with
  | ident => rfl
  | _ => exact nomatch hordinal

theorem form?_eq_typeName {name : String} (h : (t.form? x).map (fun f => (f.ordinal, f.name)) = some (26, name)) :
    t.form? x = some (.typeName name) := by
  obtain ⟨f, hf, hsame⟩ := Option.map_eq_some_iff.1 h
  obtain ⟨hordinal, rfl⟩ := Prod.mk.inj hsame
  rw [hf]
  cases f with
  | typeName => rfl
  | _ => exact nomatch hordinal

set_option maxRecDepth 100000 in
/-- The name in the arrow function stands before the declaration of the inner variable, the one that is returned
behind it. The result type of the function is not the type that its body declares, the type of its variable is. -/
theorem refersTo_shadowed : ∃ file, let t := (parse file 0).tree
    (resolve t).diagnostics = [] ∧ RefersTo t "x" 6 2 ∧ RefersTo t "x" 14 13 ∧ TypeRefersTo t "T" 5 4 ∧
      TypeRefersTo t "T" 11 10 := by
  let text := "const x = 0x1; type T = number; function f(): T \x7b const g = () => x; " ++
    "type T = string; const x: T = ''; return x; \x7d"
  let file := Source.File.ofContent 0 "main.ts" text.toUTF8.toList 0
  let t := (parse file 0).tree
  have hfacts : (resolve t).diagnostics = [] ∧ (∀ x ∈ [5, 6, 11, 14], x ∈ t.reached) ∧
      [5, 6, 11, 14].map (fun x => (t.form? x).map fun f => (f.ordinal, f.name)) =
        [some (26, "T"), some (13, "x"), some (26, "T"), some (13, "x")] ∧
      [6, 14].map (resolve t).table.decl? = [some 2, some 13] ∧
      [5, 11].map (resolve t).table.typeDecl? = [some 4, some 10] := by decide +kernel
  obtain ⟨hnil, hreached, hforms, hdecls, htypeDecls⟩ := hfacts
  simp only [List.map_cons, List.map_nil, List.cons.injEq, and_true] at hforms hdecls htypeDecls
  obtain ⟨hvalues, htypes⟩ := resolve_innermost file 0 hnil
  have hvalue {x d : Nat} (hx : x ∈ t.reached)
    (hf : (t.form? x).map (fun f => (f.ordinal, f.name)) = some (13, "x"))
      (hd : (resolve t).table.decl? x = some d) : RefersTo t "x" x d := by
    obtain ⟨e, he, hrefers⟩ := hvalues x hx "x" (form?_eq_ident hf)
    obtain rfl := Option.some.inj (he.symm.trans hd)
    exact hrefers
  have htype {x d : Nat} (hx : x ∈ t.reached) (hf : (t.form? x).map (fun f => (f.ordinal, f.name)) = some (26, "T"))
      (hd : (resolve t).table.typeDecl? x = some d) : TypeRefersTo t "T" x d := by
    obtain ⟨e, he, hrefers⟩ := htypes x hx "T" (form?_eq_typeName hf) (by decide)
    obtain rfl := Option.some.inj (he.symm.trans hd)
    exact hrefers
  exact ⟨file, hnil, hvalue (hreached 6 (by simp)) hforms.2.1 hdecls.1,
    hvalue (hreached 14 (by simp)) hforms.2.2.2 hdecls.2, htype (hreached 5 (by simp)) hforms.1 htypeDecls.1,
    htype (hreached 11 (by simp)) hforms.2.2.1 htypeDecls.2⟩

set_option maxRecDepth 100000 in
/-- The type of a parameter is not that of the function's body, although the function declares both. -/
theorem not_innermost_of_signature : ¬ ∀ (file : Source.File) (maxErrors : Nat),
    let t := (parse file maxErrors).tree
    (resolve t).diagnostics = [] → ∀ x ∈ t.reached, ∀ name, t.form? x = some (.typeName name) →
      Ty.isPrimitiveName name = false → ∃ d, (resolve t).table.typeDecl? x = some d ∧
        Innermost (enclosing t x) (fun c e => DeclaresType t c e ∧ t.name e = name) d := by
  intro h
  let text := "type T = number;\nfunction f(p: T): void \x7b type T = string; \x7d"
  let file := Source.File.ofContent 0 "main.ts" text.toUTF8.toList 0
  let t := (parse file 0).tree
  have hfacts : (resolve t).diagnostics = [] ∧ 3 ∈ t.reached ∧
      (t.form? 3).map (fun f => (f.ordinal, f.name)) = some (26, "T") ∧ (resolve t).table.typeDecl? 3 = some 2 ∧
      enclosing t 3 = [9, 10] ∧ 7 ∈ t.decls 9 ∧ symbolKind t 7 = .type ∧ t.name 7 = "T" := by decide +kernel
  obtain ⟨hnil, hreached, hform, hfound, henclosing, hdecl, hkind, hname⟩ := hfacts
  have howned : DeclaresType t 9 7 ∧ t.name 7 = "T" := ⟨⟨hdecl, hkind⟩, hname⟩
  obtain ⟨d, hd, inner, c, outer, hcs, howns, hinner⟩ :=
    h file 0 hnil 3 hreached "T" (form?_eq_typeName hform) (by decide)
  obtain rfl := Option.some.inj (hd.symm.trans hfound)
  cases inner with
  | nil =>
    obtain ⟨rfl, -⟩ := List.cons.inj (henclosing.symm.trans hcs)
    exact absurd ((howns 7).1 howned) (by decide)
  | cons a inner =>
    obtain ⟨rfl, -⟩ := List.cons.inj (henclosing.symm.trans hcs)
    exact hinner 9 List.mem_cons_self 7 howned

end TypedScript.Binding
