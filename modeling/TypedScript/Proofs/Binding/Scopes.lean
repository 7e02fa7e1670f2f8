import TypedScript.Proofs.Binding.Covered

/-!
# What open scopes hold

A scope holds what it is known to own, each name once. A name is looked up from the innermost scope outward, so
what is found is owned by a scope of which no scope further in owns one of that name.

* `Range`: what a scope owns.
* `Innermost`: what a name that is looked up in scopes refers to.
* `Turns`: what open scopes own before and after a computation that reports nothing.
-/

namespace TypedScript.Binding

open TypedScript.Ast TypedScript.Ast.Tree

variable {t : Tree} {name : String} {c d x : Nat}

/-! ### Where a name is found -/

/-- The declaration is the only one that some container owns, and no container before it in the list owns any. -/
def Innermost (cs : List Nat) (owns : Nat → Nat → Prop) (d : Nat) : Prop :=
  ∃ inner c outer, cs = inner ++ c :: outer ∧ (∀ e, owns c e ↔ e = d) ∧ ∀ c' ∈ inner, ∀ e, ¬ owns c' e

/-- What owners of less own, if the declaration in question is still owned. -/
theorem Innermost.mono {cs : List Nat} {owns owns' : Nat → Nat → Prop} (h : Innermost cs owns d)
    (hle : ∀ c ∈ cs, ∀ e, owns' c e → owns c e) (hd : ∀ c ∈ cs, owns c d → owns' c d) : Innermost cs owns' d := by
  obtain ⟨inner, c, outer, rfl, hc, hinner⟩ := h
  refine ⟨inner, c, outer, rfl, fun e => ⟨fun he => ?_, ?_⟩, fun c' hc' e he => ?_⟩
  · exact (hc e).1 (hle c (by simp) e he)
  · rintro rfl
    exact hd c (by simp) ((hc e).2 rfl)
  · exact hinner c' hc' e (hle c' (by simp [hc']) e he)

/-- The list names the declarations that are owned, no name twice. -/
structure Lists (t : Tree) (owns : Nat → Prop) (names : List (String × Nat)) : Prop where
  mem : ∀ name d, (name, d) ∈ names ↔ owns d ∧ t.name d = name
  nodup : (names.map (·.1)).Nodup

namespace Lists

variable {owns : Nat → Prop} {names : List (String × Nat)}

theorem nil (t : Tree) : Lists t (fun _ => False) [] := ⟨by simp, List.nodup_nil⟩

theorem cons (h : Lists t owns names) (hnew : names.lookup (t.name d) = none) :
    Lists t (fun e => owns e ∨ e = d) ((t.name d, d) :: names) := by
  refine ⟨fun name e => ?_, List.nodup_cons.2 ⟨fun hmem => ?_, h.nodup⟩⟩
  · rw [List.mem_cons, h.mem, Prod.mk.injEq]
    constructor
    · rintro (⟨rfl, rfl⟩ | ⟨he, hname⟩)
      · exact ⟨.inr rfl, rfl⟩
      · exact ⟨.inl he, hname⟩
    · rintro ⟨he | rfl, hname⟩
      · exact .inr ⟨he, hname⟩
      · exact .inl ⟨hname.symm, rfl⟩
  · obtain ⟨q, hq, hname⟩ := List.mem_map.1 hmem
    have hne := List.lookup_eq_none_iff.1 hnew q hq
    simp [hname] at hne

theorem eq_of_lookup (h : Lists t owns names) (hl : names.lookup name = some d) (e : Nat) : owns e ∧
    t.name e = name ↔ e = d := by
  obtain ⟨front, back, heq, -⟩ := List.lookup_eq_some_iff.1 hl
  have hd : (name, d) ∈ names := by simp [heq]
  rw [← h.mem]
  constructor
  · exact fun he => (Prod.mk.inj (List.inj_on_of_nodup_map h.nodup he hd rfl)).2
  · rintro rfl
    exact hd

theorem not_owns_of_lookup (h : Lists t owns names) (hl : names.lookup name = none) (e : Nat) :
    ¬ (owns e ∧ t.name e = name) := by
  rw [← h.mem]
  intro he
  have hne := List.lookup_eq_none_iff.1 hl _ he
  simp at hne

end Lists

/-- What a name refers to is found in the innermost scope that owns one. -/
theorem innermost_of_lookupIn {part : Names → List (String × Nat)} {owns : Nat → Nat → Prop} {cs : List Nat}
    {scopes : List Names} (h : List.Forall₂ (fun c s => Lists t (owns c) (part s)) cs scopes)
    (hl : lookupIn part name scopes = some d) : Innermost cs (fun c e => owns c e ∧ t.name e = name) d := by
  induction h with
  | nil => exact nomatch hl
  | @cons c s cs scopes hs _ ih =>
    rw [lookupIn, List.findSome?_cons] at hl
    cases hfirst : (part s).lookup name with
    | some e =>
      rw [hfirst] at hl
      obtain rfl : e = d := Option.some.inj hl
      exact ⟨[], c, cs, rfl, hs.eq_of_lookup hfirst, nofun⟩
    | none =>
      rw [hfirst] at hl
      obtain ⟨inner, c', outer, rfl, hc', hinner⟩ := ih hl
      refine ⟨c :: inner, c', outer, rfl, hc', ?_⟩
      exact List.forall_mem_cons.2 ⟨hs.not_owns_of_lookup hfirst, hinner⟩

/-! ### What a name refers to -/

/-- The containers around a node, innermost first. -/
def enclosing (t : Tree) (x : Nat) : List Nat := (t.ancestors x).filter t.isContainer

def IsVariable (t : Tree) (d : Nat) : Prop := ∃ name isConst type init, t.form? d = some
    (.varDecl name isConst type init)

/-- A variable is visible behind the start of its declaration, and in its own initializer only within a function;
other values are visible everywhere. -/
def VisibleAt (t : Tree) (d x : Nat) : Prop := IsVariable t d → (t.span d).start < (t.span x).start ∧
  (d ∈ t.ancestors x → ∃ fn ∈ t.ancestors x, t.isFunction fn = true ∧ d ∈ t.ancestors fn)

/-- The node declares a type in the container. -/
def DeclaresType (t : Tree) (c d : Nat) : Prop := d ∈ t.decls c ∧ symbolKind t d = .type

/-- If the container is a function, the node stands in its body: not in its parameters and not in its result type.
-/
def InBody (t : Tree) (c x : Nat) : Prop :=
  ∀ f body, t.form? c = some f → f.body? = some body → body = x ∨ body ∈ t.ancestors x

/-- The declaration is the one of the value `name` that is visible at `x` in the innermost container with one. -/
def RefersTo (t : Tree) (name : String) (x d : Nat) : Prop :=
  Innermost (enclosing t x) (fun c e => DeclaresValue t c e ∧ t.name e = name ∧ VisibleAt t e x) d

/-- The declaration is the one of the type `name` in the innermost container with one, apart from functions in
whose parameters or result type `x` stands. -/
def TypeRefersTo (t : Tree) (name : String) (x d : Nat) : Prop :=
  Innermost (enclosing t x) (fun c e => DeclaresType t c e ∧ t.name e = name ∧ InBody t c x) d

/-! ### What scopes own -/

/-- What a scope owns. -/
structure Range where
  values : Nat → Prop
  types : Nat → Prop

namespace Range

/-- What a scope owns that was just opened. -/
def empty : Range := ⟨fun _ => False, fun _ => False⟩

/-- What a scope owns when the declarations have been added. -/
def add (t : Tree) (o : Range) (ds : List Nat) : Range where
  values d := o.values d ∨ d ∈ ds ∧ symbolKind t d ≠ .type
  types d := o.types d ∨ d ∈ ds ∧ symbolKind t d = .type

theorem ext {o o' : Range} (hvalues : ∀ d, o.values d ↔ o'.values d) (htypes : ∀ d, o.types d ↔ o'.types d) :
    o = o' := by
  cases o
  cases o'
  rw [Range.mk.injEq]
  exact ⟨funext fun d => propext (hvalues d), funext fun d => propext (htypes d)⟩

theorem add_nil (o : Range) : o.add t [] = o := ext (by simp [add]) (by simp [add])

theorem add_add (o : Range) (ds es : List Nat) : (o.add t ds).add t es = o.add t (ds ++ es) :=
  ext (fun d => by simp only [add, List.mem_append]; tauto) fun d => by simp only [add, List.mem_append]; tauto

end Range

/-- The scopes hold what they own, and names refer to what they should. -/
structure Meets (t : Tree) (os : List Range) (r : Resolver) : Prop where
  values : List.Forall₂ (fun o (s : Names) => Lists t o.values s.values) os r.scopes
  types : List.Forall₂ (fun o (s : Names) => Lists t o.types s.types) os r.scopes
  refs : ∀ x d, r.table.refs[x]? = some d → RefersTo t (t.name x) x d
  typeRefs : ∀ x d, r.table.typeRefs[x]? = some d → TypeRefersTo t (t.name x) x d

/-- If nothing is reported, the scopes own this before and that after. -/
structure Turns (t : Tree) (os os' : List Range) (act : ResolveM Unit) : Prop where
  spreads : Leaves Spreads act
  meets : ∀ r, Meets t os r → (act r).2.diagnostics = [] → Meets t os' (act r).2

namespace Turns

variable {os os' os'' : List Range} {act act' : ResolveM Unit} {α : Type}

theorem pure : Turns t os os (pure ()) := ⟨.pure _, fun _ h _ => h⟩

theorem bind (h : Turns t os os' act) (h' : Turns t os' os'' act') : Turns t os os'' (do act; act') where
  spreads := h.spreads.bind fun _ => h'.spreads
  meets r hr hnil := h'.meets _ (h.meets r hr ((h'.spreads _).diagnostics hnil)) hnil

/-- Every step turns what the steps before have left. -/
theorem forM {f : α → ResolveM Unit} {xs : List α} {S : List α → List Range}
    (h : ∀ before x after, xs = before ++ x :: after → Turns t (S before) (S (before ++ [x])) (f x)) :
    Turns t (S []) (S xs) (xs.forM f) := by
  induction xs generalizing S with
  | nil => exact .pure
  | cons x xs ih =>
    refine (h [] x xs rfl).bind (ih (S := fun before => S (x :: before)) fun before y after heq => ?_)
    rw [heq] at h
    exact h (x :: before) y after rfl

/-- What nothing turns. -/
theorem forM_same {f : α → ResolveM Unit} {xs : List α} (h : ∀ x ∈ xs, Turns t os os (f x)) :
    Turns t os os (xs.forM f) :=
  forM (S := fun _ => os) fun before x after heq => h x (by simp [heq])

theorem inScope {o : Range} (h : Turns t (.empty :: os) (o :: os') act) : Turns t os os' (inScope act) := by
  refine ⟨spreads_inScope h.spreads, fun r hr hnil => ?_⟩
  have hopen : Meets t (.empty :: os) { r with scopes := {} :: r.scopes } :=
    ⟨.cons (.nil t) hr.values, .cons (.nil t) hr.types, hr.refs, hr.typeRefs⟩
  obtain ⟨hvalues, htypes, hrefs, htypeRefs⟩ := h.meets _ hopen hnil
  obtain ⟨s, scopes, -, hvalues, hscopes⟩ := List.forall₂_cons_left_iff.1 hvalues
  refine ⟨?_, ?_, hrefs, htypeRefs⟩
  · change List.Forall₂ _ _ (act { r with scopes := {} :: r.scopes }).2.scopes.tail
    rw [hscopes]
    exact hvalues
  · change List.Forall₂ _ _ (act { r with scopes := {} :: r.scopes }).2.scopes.tail
    rw [hscopes] at htypes ⊢
    exact (List.forall₂_cons.1 htypes).2

end Turns

/-! ### Declaring -/

/-- Reporting leaves a report. -/
theorem report_ne_nil (span : Source.Span) (p : Problem) (notes : List Diagnostic.Note) (r : Resolver) :
    (report span p notes r).2.diagnostics ≠ [] := List.append_ne_nil_of_right_ne_nil _ (by simp)

theorem declare_value {r : Resolver} {top : Names} {outer : List Names} (hkind : symbolKind t d ≠ .type)
    (hopen : r.scopes = top :: outer) (hnil : (declare t d r).2.diagnostics = []) :
    top.values.lookup (t.name d) = none ∧
      (declare t d r).2 = { r with scopes := { top with values := (t.name d, d) :: top.values } :: outer } := by
  obtain ⟨scopes, table, diagnostics⟩ := r
  obtain rfl : scopes = top :: outer := hopen
  unfold declare at hnil ⊢
  simp only [hkind, decide_false, Bool.false_and, Bool.false_eq_true, if_false, bind, StateT.bind, get, getThe,
    MonadStateOf.get, StateT.get, pure] at hnil ⊢
  cases hl : top.values.lookup (t.name d) with
  | some prev =>
    rw [hl] at hnil
    exact absurd hnil (report_ne_nil _ _ _ _)
  | none => exact ⟨rfl, rfl⟩

theorem declare_type {r : Resolver} {top : Names} {outer : List Names} (hkind : symbolKind t d = .type)
    (hopen : r.scopes = top :: outer) (hnil : (declare t d r).2.diagnostics = []) :
    top.types.lookup (t.name d) = none ∧
      (declare t d r).2 = { r with scopes := { top with types := (t.name d, d) :: top.types } :: outer } := by
  obtain ⟨scopes, table, diagnostics⟩ := r
  obtain rfl : scopes = top :: outer := hopen
  unfold declare at hnil ⊢
  by_cases hprimitive : Ty.isPrimitiveName (t.name d) = true
  · rw [if_pos (by simp [hkind, hprimitive])] at hnil
    exact absurd hnil (report_ne_nil _ _ _ _)
  rw [if_neg (by simp [hprimitive])] at hnil ⊢
  simp only [hkind, if_true, bind, StateT.bind, get, getThe, MonadStateOf.get, StateT.get, pure] at hnil ⊢
  cases hl : top.types.lookup (t.name d) with
  | some prev =>
    rw [hl] at hnil
    exact absurd hnil (report_ne_nil _ _ _ _)
  | none => exact ⟨rfl, rfl⟩

theorem turns_declare (o : Range) (os : List Range) (d : Nat) : Turns t (o :: os) (o.add t [d] :: os)
    (declare t d) := by
  refine ⟨spreads_declare d, fun r hr hnil => ?_⟩
  obtain ⟨top, outer, htop, houter, hopen⟩ := List.forall₂_cons_left_iff.1 hr.values
  have htypes := hr.types
  rw [hopen] at htypes
  obtain ⟨htopTypes, houterTypes⟩ := List.forall₂_cons.1 htypes
  by_cases hkind : symbolKind t d = .type
  · obtain ⟨hnew, hrun⟩ := declare_type hkind hopen hnil
    rw [hrun]
    have hvalues : (o.add t [d]).values = o.values := by
      funext e
      exact propext ⟨fun h => h.resolve_right fun h => h.2 (List.mem_singleton.1 h.1 ▸ hkind), .inl⟩
    have htypes : (o.add t [d]).types = fun e => o.types e ∨ e = d := by
      funext e
      refine propext ⟨fun h => h.imp_right fun h => List.mem_singleton.1 h.1, fun h => h.imp_right ?_⟩
      rintro rfl
      exact ⟨List.mem_singleton_self _, hkind⟩
    refine ⟨.cons ?_ houter, .cons ?_ houterTypes, hr.refs, hr.typeRefs⟩
    · rw [hvalues]
      exact htop
    · rw [htypes]
      exact htopTypes.cons hnew
  · obtain ⟨hnew, hrun⟩ := declare_value hkind hopen hnil
    rw [hrun]
    have htypes : (o.add t [d]).types = o.types := by
      funext e
      exact propext ⟨fun h => h.resolve_right fun h => hkind (List.mem_singleton.1 h.1 ▸ h.2), .inl⟩
    have hvalues : (o.add t [d]).values = fun e => o.values e ∨ e = d := by
      funext e
      refine propext ⟨fun h => h.imp_right fun h => List.mem_singleton.1 h.1, fun h => h.imp_right ?_⟩
      rintro rfl
      exact ⟨List.mem_singleton_self _, hkind⟩
    refine ⟨.cons ?_ houter, .cons ?_ houterTypes, hr.refs, hr.typeRefs⟩
    · rw [hvalues]
      exact htop.cons hnew
    · rw [htypes]
      exact htopTypes

theorem turns_hoist (o : Range) (os : List Range) (c : Nat) :
    Turns t (o :: os) (o.add t ((t.decls c).filter (isHoisted t)) :: os) (hoist t c) := by
  have h : Turns t (o.add t [] :: os) (o.add t ((t.decls c).filter (isHoisted t)) :: os) (hoist t c) :=
    .forM (S := fun before => o.add t before :: os) fun before d after _ =>
      Range.add_add o before [d] ▸ turns_declare (o.add t before) os d
  rwa [Range.add_nil] at h

/-! ### Binding -/

/-- A value is bound to what is found, and that is not used too early. -/
theorem resolveValue_bound {r : Resolver} (hnil : (resolveValue t x name r).2.diagnostics = []) :
    ∃ d, lookupIn (·.values) name r.scopes = some d ∧ isPremature t d x = false ∧
      (resolveValue t x name r).2 = { r with table := { r.table with refs := r.table.refs.insert x d } } := by
  simp only [resolveValue, bind, StateT.bind, get, getThe, MonadStateOf.get, StateT.get, pure] at hnil ⊢
  cases hd : lookupIn (·.values) name r.scopes with
  | none =>
    rw [hd] at hnil
    exact absurd hnil (report_ne_nil _ _ _ _)
  | some d =>
    rw [hd] at hnil
    cases hpremature : isPremature t d x with
    | true =>
      simp only [hpremature, if_true] at hnil
      exact absurd hnil (report_ne_nil _ _ _ _)
    | false => exact ⟨d, rfl, hpremature, by simp only [hpremature]; rfl⟩

/-- What is not used too early is not used in its own initializer, or within a function there. -/
theorem deferred_of_isPremature {init : Nat} {type : Option Nat} {isConst : Bool}
    (hd : t.form? d = some (.varDecl name isConst type init)) (hpremature : isPremature t d x = false)
    (hin : d ∈ t.ancestors x) : ∃ fn ∈ t.ancestors x, t.isFunction fn = true ∧ d ∈ t.ancestors fn := by
  have hdeferred : isDeferredWithin t d x = true := by simpa [isPremature, hd, isAncestor, hin] using hpremature
  obtain ⟨fn, hfn, hfunction⟩ := List.any_eq_true.1 hdeferred
  obtain ⟨hmem, houter⟩ := (mem_takeWhile_ancestors hin).1 hfn
  exact ⟨fn, hmem, hfunction, houter⟩

theorem turns_resolveValue {os : List Range} (hname : t.name x = name)
    (h : ∀ d r, Meets t os r → lookupIn (·.values) name r.scopes = some d → isPremature t d x = false →
    RefersTo t name x d) :
    Turns t os os (resolveValue t x name) := by
  refine ⟨spreads_resolveValue x name, fun r hr hnil => ?_⟩
  obtain ⟨d, hd, hpremature, hrun⟩ := resolveValue_bound hnil
  rw [hrun]
  refine ⟨hr.values, hr.types, fun y e hy => ?_, hr.typeRefs⟩
  change (r.table.refs.insert x d)[y]? = some e at hy
  rw [Std.TreeMap.getElem?_insert] at hy
  split at hy
  · rename_i heq
    obtain rfl : x = y := Std.LawfulEqCmp.eq_of_compare heq
    obtain rfl : d = e := Option.some.inj hy
    rw [hname]
    exact h d r hr hd hpremature
  · exact hr.refs y e hy

theorem turns_resolveType {os : List Range} (hname : t.name x = name)
    (h : ∀ d r, Meets t os r → lookupIn (·.types) name r.scopes = some d → TypeRefersTo t name x d) :
    Turns t os os (resolveType t x name) := by
  refine ⟨spreads_resolveType x name, fun r hr hnil => ?_⟩
  cases hprimitive : Ty.isPrimitiveName name with
  | true =>
    have hrun : (resolveType t x name r).2 = r := by
      unfold resolveType
      rw [if_pos hprimitive]
      rfl
    rw [hrun]
    exact hr
  | false =>
    rcases resolveType_lookup hprimitive r with ⟨p, hrun⟩ | ⟨d, hd, hrun⟩ <;> rw [hrun] at hnil ⊢
    · exact absurd hnil (report_ne_nil _ _ _ _)
    refine ⟨hr.values, hr.types, hr.refs, fun y e hy => ?_⟩
    change (r.table.typeRefs.insert x d)[y]? = some e at hy
    rw [Std.TreeMap.getElem?_insert] at hy
    split at hy
    · rename_i heq
      obtain rfl : x = y := Std.LawfulEqCmp.eq_of_compare heq
      obtain rfl : d = e := Option.some.inj hy
      rw [hname]
      exact h d r hr hd
    · exact hr.typeRefs y e hy

end TypedScript.Binding
