import TypedScript.Proofs.Ast.WellFormed
import TypedScript.Proofs.Check.Typing

/-!
# Checking without reports

What a computation of the checker leads to if it reports nothing. No report is ever taken back, so when nothing is
reported in the end nothing was on the way; the rules for putting computations together carry that along.

* `Quiet`: what holds after a computation that reports nothing.
* `Scene`: what parsing and binding say of a tree; `Orderly`: what holds of the checker's state at all times.
* `Prepared`, `Visits`: before and after some nodes are visited, in the order in which they are listed.
-/

namespace TypedScript.Check

open TypedScript.Ast TypedScript.Binding TypedScript.Ty

variable {env : Env} {s s' s'' : State} {α β : Type} {P P' : Prop}

/-! ### Computations -/

/-- No report is taken back; and if the assumption holds and nothing is reported, the outcome has the property. -/
structure Quiet (P : Prop) (s : State) (act : CheckM α) (Q : State → α → Prop) : Prop where
  grows : s.diagnostics.length ≤ (act.run s).2.diagnostics.length
  result : P → (act.run s).2.diagnostics.length = s.diagnostics.length → Q (act.run s).2 (act.run s).1

namespace Quiet

variable {act act' : CheckM α} {f : α → CheckM β} {Q Q' : State → α → Prop} {R : State → β → Prop}

theorem imp (h : Quiet P' s act Q) (hP : P → P') (hQ : ∀ s' a, P → Q s' a → Q' s' a) : Quiet P s act Q' :=
  ⟨h.grows, fun hp hquiet => hQ _ _ hp (h.result (hP hp) hquiet)⟩

/-- Whatever it leads to, no report is taken back. -/
theorem void (h : Quiet P s act Q) : Quiet False s act Q' := ⟨h.grows, False.elim⟩

theorem bind (h : Quiet P' s act Q) (hP : P → P') (hf : ∀ s' a, Quiet (P ∧ Q s' a) s' (f a) R) :
    Quiet P s (act >>= f) R := by
  have hthen := hf (act.run s).2 (act.run s).1
  have hfirst := h.grows
  have hlast := hthen.grows
  refine ⟨Nat.le_trans hfirst hlast, fun hp hquiet => ?_⟩
  have hquiet : ((f (act.run s).1).run (act.run s).2).2.diagnostics.length = s.diagnostics.length := hquiet
  exact hthen.result ⟨hp, h.result (hP hp) (by omega)⟩ (by omega)

theorem pure {a : α} (h : P → Q s a) : Quiet P s (pure a) Q := ⟨Nat.le_refl _, fun hp _ => h hp⟩

theorem ite {p : Prop} [Decidable p] (h : p → Quiet P s act Q) (h' : ¬ p → Quiet P s act' Q) :
    Quiet P s (if p then act else act') Q := by
  split
  · exact h ‹_›
  · exact h' ‹_›

/-- A type that was found is not missing. -/
theorem known {n : Nat} {a : α} (hne : P → n ≠ 0) (h : n ≠ 0 → Quiet P s act Q) :
    Quiet P s (if n = 0 then Pure.pure a else act) Q :=
  ite (fun hzero => pure fun hp => absurd hzero (hne hp)) h

/-- What only reads the state yields what it finds. -/
theorem reading {a : α} (hrun : act.run s = (a, s)) (h : Quiet P s (f a) R) : Quiet P s (act >>= f) R := by
  have hthen : (act >>= f).run s = (f a).run s := by
    rw [StateT.run_bind, hrun]
    rfl
  exact ⟨hthen ▸ h.grows, hthen ▸ h.result⟩

theorem read {f : State → CheckM β} (h : Quiet P s (f s) R) : Quiet P s (get >>= f) R := h.reading rfl

theorem resolved? {type : Nat} {f : Option Ty → CheckM β} (h : Quiet P s (f (s.types.resolved? type)) R) :
    Quiet P s (Check.resolved? type >>= f) R := h.reading rfl

theorem assignable {dst src : Nat} {f : Bool → CheckM β} (h : Quiet P s (f (s.types.assignable dst src)) R) :
    Quiet P s (Check.assignable dst src >>= f) R := h.reading rfl

theorem typeText {type : Nat} {f : String → CheckM β} (h : Quiet P s (f (s.types.render type)) R) :
    Quiet P s (Check.typeText type >>= f) R := h.reading rfl

/-- What changes the state and reports nothing. -/
theorem modify {g : State → State} {Q : State → Unit → Prop} (hg : (g s).diagnostics = s.diagnostics)
    (h : P → Q (g s) ()) :
    Quiet P s (modify g) Q :=
  ⟨Nat.le_of_eq (congrArg List.length hg).symm, fun hp _ => h hp⟩

/-- What reports something is never quiet. -/
theorem report (span : Source.Span) (p : Problem) {Q : State → Unit → Prop} : Quiet P s
    (Check.report span p) Q := by
  have hlength : ((Check.report span p).run s).2.diagnostics.length = s.diagnostics.length + 1 := List.length_append
  exact ⟨by omega, fun _ hquiet => by omega⟩

/-- What comes after a report is of no matter. -/
theorem never (h : Quiet P s act fun _ _ => False) (hf : ∀ s' a, Quiet False s' (f a) R) : Quiet P s
    (act >>= f) R :=
  h.bind id fun s' a => (hf s' a).imp And.right fun _ _ _ => id

theorem reported {span : Source.Span} {p : Problem} {f : Unit → CheckM β} (hf : ∀ s', Quiet False s' (f ()) R) :
    Quiet P s (Check.report span p >>= f) R := (report span p).never fun s' _ => hf s'

theorem reported_pure {span : Source.Span} {p : Problem} {b : β} : Quiet P s
    (Check.report span p >>= fun _ => Pure.pure b) R :=
  reported fun _ => .pure False.elim

theorem reportMismatch (span : Source.Span) (want got : Nat) {Q : State → Unit → Prop} :
    Quiet P s (Check.reportMismatch span want got) Q := typeText (typeText (report span _))

theorem expect (span : Source.Span) (want got : Nat) : Quiet P s (Check.expect span want got) fun s' _ =>
    s' = s ∧ (want ≠ 0 → got ≠ 0 → s.types.assignable want got = true) := by
  unfold Check.expect
  refine .ite (fun hne => .assignable (.ite (fun _ => reportMismatch span want got) fun hfits => .pure fun _ => ?_))
    fun hzero =>
    .pure fun _ => ⟨rfl, fun hwant hgot => absurd ⟨hwant, hgot⟩ hzero⟩
  exact ⟨rfl, fun _ _ => by simpa using hfits⟩

/-- What holds before every step of a loop of what is left to do holds of nothing in the end. -/
theorem forM {I : List β → State → Prop} {f : β → CheckM PUnit} (xs : List β)
    (hstep : ∀ x ∈ xs, ∀ rest s, Quiet (I (x :: rest) s) s (f x) fun s' _ => I rest s') (s : State) :
    Quiet (I xs s) s (xs.forM f) fun s' _ => I [] s' := by
  induction xs generalizing s with
  | nil => exact .pure fun h => h
  | cons x xs ih =>
    rw [List.forall_mem_cons] at hstep
    exact (hstep.1 xs s).bind (fun h => h) fun s' _ => (ih hstep.2 s').imp And.right fun _ _ _ h => h

/-- Only the result is left out. -/
theorem discard {Q : State → Prop} (h : Quiet P s act fun s' _ => Q s') : Quiet P s
    (do let _ ← act) fun s' _ => Q s' :=
  h.bind id fun _ _ => .pure And.right

end Quiet

/-! ### The scene -/

/-- The parameters of a node that is a function. -/
def paramsOf (t : Tree) (d : Nat) : List Nat := ((t.form? d).getD .null).params

/-- The declaration gets its type before it is visited: it is an alias, a function with a written result, or a
parameter of one. -/
def Early (t : Tree) (v : Nat) : Prop :=
  symbolKind t v = .type ∨ ∃ d, DeclaresFunction t d ∧ ¬ IsInferred t d ∧ (v = d ∨ v ∈ paramsOf t d)

/-- What parsing and binding say of a tree, and the order of declarations and uses that checking relies on. -/
structure Scene (env : Env) : Prop where
  forest : Forest env.tree.nodes []
  linked : env.tree.Linked
  named : ∀ id, '=' ∉ (env.tree.name id).toList
  nodup : env.tree.reachedOutsideTypes.Nodup
  nodupAliases : (aliasDecls env.tree).Nodup
  bound : ∀ u ∈ env.tree.reachedOutsideTypes, ∀ name, env.tree.form? u = some (.ident name) →
    env.table.decl? u ≠ none
  typeBound : ∀ u ∈ env.tree.reached, ∀ name, env.tree.form? u = some (.typeName name) → primitive? name = none →
    ∃ d ∈ aliasDecls env.tree, env.table.typeDecl? u = some d
  declared : ∀ u ∈ env.tree.reachedOutsideTypes, ∀ d, env.table.decl? u = some d →
    d ∈ env.tree.reachedOutsideTypes ∧ env.tree.isDeclaration d = true ∧ symbolKind env.tree d ≠ .type
  /-- A name is used behind its declaration, or it is that of a function with a written result. -/
  behind : ∀ u d, env.table.decl? u = some d → [u, d].Sublist env.tree.reachedOutsideTypes →
    DeclaresFunction env.tree d ∧ ¬ IsInferred env.tree d
  /-- A variable is not used in its own initializer. -/
  apart : ∀ d, IsVariable env.tree d → ∀ u ∈ listing env.tree d, env.table.decl? u ≠ some d

theorem Scene.param (h : Scene env) {d p : Nat} (hp : p ∈ paramsOf env.tree d) :
    ∃ name type, env.tree.form? p = some (.param name type) := by
  unfold paramsOf at hp
  cases hf : env.tree.form? d with
  | none => simp [hf, Form.params] at hp
  | some f => exact h.linked.param_part hf (mem_parts_of_params (by simpa [hf] using hp))

theorem paramsOf_sublist (t : Tree) (d : Nat) : (paramsOf t d).Sublist (t.children d) := by
  unfold paramsOf Tree.children
  cases t.form? d with
  | none => exact .slnil
  | some f =>
    change f.params.Sublist f.children
    cases f <;> simp [Form.params, Form.children]

/-- A parameter is that of one function only. -/
theorem Scene.parents (h : Scene env) {a b p : Nat} (ha : p ∈ paramsOf env.tree a)
    (hb : p ∈ paramsOf env.tree b) : a = b :=
  Tree.parent_unique h.forest ((paramsOf_sublist _ _).subset ha) ((paramsOf_sublist _ _).subset hb)

theorem Scene.nodup_params (h : Scene env) (d : Nat) : (paramsOf env.tree d).Nodup :=
  (Tree.nodup_children h.forest d).sublist (paramsOf_sublist _ _)

namespace Typing

variable {Γ Γ' : Typing} {S : Nat → Prop} {d v : Nat}

/-- The node obeys the rule of its form. -/
def Judged (env : Env) (Γ : Typing) (v : Nat) : Prop := ∀ f, env.tree.form? v = some f → Obeys env Γ v f

theorem Judged.grow (h : Judged env Γ v) (hlinked : env.tree.Linked) (hΓ : Grows Γ Γ') : Judged env Γ' v :=
  fun f hf => (h f hf).mono hlinked hf hΓ (fun _ _ => trivial) (fun _ _ => trivial) fun _ _ => trivial

/-- The function has a type that goes with its parameters and its written result. -/
def Signed (env : Env) (Γ : Typing) (d : Nat) : Prop :=
  (∃ ρ, Callable env Γ d (paramsOf env.tree d) ((env.tree.form? d).getD .null).type? ρ) ∧
    ∀ p ∈ paramsOf env.tree d, ∃ σ, Γ.HasType p σ ∧ ∀ w ∈ (env.tree.form? p).bind (·.type?), Denotes env Γ w σ

theorem Signed.grow (h : Signed env Γ d) (hΓ : GrowsOn S Γ Γ') (halias : ∀ d, symbolKind env.tree d = .type → S d)
    (hd : S d) (hparams : ∀ p ∈ paramsOf env.tree d, S p) : Signed env Γ' d := by
  obtain ⟨⟨ρ, hcallable⟩, heach⟩ := h
  refine ⟨⟨ρ, hcallable.grow hΓ halias hd hparams⟩, fun p hp => ?_⟩
  obtain ⟨σ, hσ, hwritten⟩ := heach p hp
  exact ⟨σ, hΓ.info p σ (hparams p hp) hσ, fun w hw => (hwritten w hw).grow hΓ halias⟩

end Typing

open Typing

/-- What holds of the checker's state whenever it visits nodes. -/
structure Orderly (env : Env) (s : State) : Prop where
  stocked : s.types.Stocked
  sound : s.types.Sound
  has : ∀ v τ, s.typing.HasType v τ → s.types.Has τ
  aliases : ∀ d ∈ aliasDecls env.tree, ∃ τ, s.aliases.lookup d = some τ ∧ s.typing.HasType d τ
  signed : ∀ d τ, s.signatures.lookup d = some τ → DeclaresFunction env.tree d ∧ s.typing.HasType d τ ∧
    Signed env s.typing d
  unsigned : ∀ d, DeclaresFunction env.tree d → s.signatures.lookup d = none →
    s.info[d]? = none ∧ (¬ IsInferred env.tree d → ∀ p ∈ paramsOf env.tree d, s.info[p]? = none)
  busy : ∀ d ∈ s.busy, d ∈ s.done

/-- The declaration has a type, or the type can be found out without visiting what comes after it. -/
def Known (env : Env) (s : State) (d : Nat) : Prop :=
  (∃ τ, s.typing.HasType d τ) ∨ DeclaresFunction env.tree d ∧ (¬ IsInferred env.tree d ∨ d ∈ s.busy)

/-- Between the states some nodes got types: among the given ones, apart from those that get theirs early. -/
structure Spreads (env : Env) (s s' : State) (ns : List Nat) : Prop where
  typing : Grows s.typing s'.typing
  busy : s'.busy = s.busy
  fresh : ∀ v τ, s'.typing.HasType v τ → (∃ σ, s.typing.HasType v σ) ∨ v ∈ ns ∨ Early env.tree v
  done : ∀ v ∈ s'.done, v ∈ s.done ∨ v ∈ ns
  kept : s.done ⊆ s'.done

/-- The nodes were visited: they obey their rules. -/
structure Visits (env : Env) (s s' : State) (ns : List Nat) : Prop extends Spreads env s s' ns where
  orderly : Orderly env s'
  judged : ∀ v ∈ ns, Judged env s'.typing v

/-- The nodes can be visited: what is used in them is known or declared in them, and they were not visited before.
-/
structure Prepared (env : Env) (s : State) (ns : List Nat) : Prop where
  placed : ns.Sublist env.tree.reachedOutsideTypes
  orderly : Orderly env s
  supplied : ∀ u ∈ ns, ∀ d, env.table.decl? u = some d → Known env s d ∨ d ∈ ns
  fresh : ∀ v ∈ ns, v ∉ s.done ∧ ∀ τ, s.typing.HasType v τ → Early env.tree v

section

variable {ns ns' : List Nat} {d id : Nat}

theorem Known.spread (h : Known env s d) (hs : Spreads env s s' ns) : Known env s' d := by
  rcases h with ⟨τ, hτ⟩ | ⟨hdecl, hwritten | hbusy⟩
  · exact .inl ⟨τ, hs.typing.info d τ trivial hτ⟩
  · exact .inr ⟨hdecl, .inl hwritten⟩
  · exact .inr ⟨hdecl, .inr (hs.busy ▸ hbusy)⟩

namespace Spreads

theorem refl (env : Env) (s : State) : Spreads env s s [] :=
  ⟨.refl _, rfl, fun _ τ h => .inl ⟨τ, h⟩, fun _ => .inl, fun _ h => h⟩

theorem trans (h : Spreads env s s' ns) (h' : Spreads env s' s'' ns') : Spreads env s s'' (ns ++ ns') where
  typing := h.typing.trans h'.typing
  busy := h'.busy.trans h.busy
  fresh v τ hτ := by
    rcases h'.fresh v τ hτ with ⟨σ, hσ⟩ | hmem | hearly
    · exact (h.fresh v σ hσ).imp_right (Or.imp_left (List.mem_append_left _))
    · exact .inr (.inl (List.mem_append_right _ hmem))
    · exact .inr (.inr hearly)
  done v hv := by
    rcases h'.done v hv with hv | hv
    · exact (h.done v hv).imp_right (List.mem_append_left _)
    · exact .inr (List.mem_append_right _ hv)
  kept := List.Subset.trans h.kept h'.kept

theorem mono (h : Spreads env s s' ns) (hsub : ns ⊆ ns') : Spreads env s s' ns' where
  typing := h.typing
  busy := h.busy
  fresh v τ hτ := (h.fresh v τ hτ).imp_right (Or.imp_left fun hv => hsub hv)
  done v hv := (h.done v hv).imp_right fun hv => hsub hv
  kept := h.kept

end Spreads

theorem Visits.nil (h : Orderly env s) : Visits env s s [] := ⟨.refl env s, h, nofun⟩

theorem Visits.append (h : Visits env s s' ns) (hscene : Scene env) (h' : Visits env s' s'' ns') :
    Visits env s s'' (ns ++ ns') where
  toSpreads := h.toSpreads.trans h'.toSpreads
  orderly := h'.orderly
  judged v hv := by
    rcases List.mem_append.1 hv with hv | hv
    · exact (h.judged v hv).grow hscene.linked h'.typing
    · exact h'.judged v hv

/-- A declaration of a value that was visited has a type. -/
theorem Typing.Judged.hasType {Γ : Typing} (h : Judged env Γ d) (hdecl : env.tree.isDeclaration d = true)
    (hkind : symbolKind env.tree d ≠ .type) : ∃ τ, Γ.HasType d τ := by
  unfold Tree.isDeclaration at hdecl
  cases hf : env.tree.form? d with
  | none => simp [hf] at hdecl
  | some f =>
    have hobeys := h f hf
    cases f with
    | varDecl =>
      obtain ⟨τ, hτ, -⟩ := hobeys
      exact ⟨τ, hτ⟩
    | funcDecl =>
      obtain ⟨ρ, ⟨τ, σs, hτ, -⟩, -⟩ := hobeys
      exact ⟨τ, hτ⟩
    | declareFunc =>
      obtain ⟨ρ, τ, σs, hτ, -⟩ := hobeys
      exact ⟨τ, hτ⟩
    | param =>
      obtain ⟨τ, hτ, -⟩ := hobeys
      exact ⟨τ, hτ⟩
    | typeAlias => simp [symbolKind, hf, SymbolKind.ofForm] at hkind
    | _ => simp [hf] at hdecl

namespace Prepared

theorem mem_reached (h : Prepared env s ns) {v : Nat} (hv : v ∈ ns) : v ∈ env.tree.reachedOutsideTypes :=
  h.placed.subset hv

/-- What stands at the front can be visited first: nothing behind it is needed. -/
theorem front (h : Prepared env s (ns ++ ns')) (hscene : Scene env) : Prepared env s ns where
  placed := (List.sublist_append_left _ _).trans h.placed
  orderly := h.orderly
  fresh v hv := h.fresh v (List.mem_append_left _ hv)
  supplied u hu d hd := by
    rcases h.supplied u (List.mem_append_left _ hu) d hd with hknown | hmem
    · exact .inl hknown
    rcases List.mem_append.1 hmem with hmem | hmem
    · exact .inr hmem
    · -- a declaration behind its use
      have hpair : [u, d].Sublist (ns ++ ns') :=
        (List.singleton_sublist.2 hu).append (List.singleton_sublist.2 hmem)
      obtain ⟨hdecl, hwritten⟩ := hscene.behind u d hd (hpair.trans h.placed)
      exact .inl (.inr ⟨hdecl, .inl hwritten⟩)

/-- When what stands at the front was visited, the rest can be. -/
theorem back (h : Prepared env s (ns ++ ns')) (hscene : Scene env) (hs : Visits env s s' ns) :
    Prepared env s' ns' where
  placed := (List.sublist_append_right _ _).trans h.placed
  orderly := hs.orderly
  fresh v hv := by
    have hnodup := hscene.nodup.sublist h.placed
    have hnot : v ∉ ns := fun hmem => List.disjoint_of_nodup_append hnodup hmem hv
    obtain ⟨hdone, hearly⟩ := h.fresh v (List.mem_append_right _ hv)
    refine ⟨fun hmem => (hs.done v hmem).elim hdone hnot, fun τ hτ => ?_⟩
    rcases hs.fresh v τ hτ with ⟨σ, hσ⟩ | hmem | he
    · exact hearly σ hσ
    · exact absurd hmem hnot
    · exact he
  supplied u hu d hd := by
    rcases h.supplied u (List.mem_append_right _ hu) d hd with hknown | hmem
    · exact .inl (hknown.spread hs.toSpreads)
    rcases List.mem_append.1 hmem with hmem | hmem
    · obtain ⟨-, hdecl, hkind⟩ := hscene.declared u (h.mem_reached (List.mem_append_right _ hu)) d hd
      exact .inl (.inl ((hs.judged d hmem).hasType hdecl hkind))
    · exact .inr hmem

/-- What stands below a node can be visited. -/
theorem below (h : Prepared env s (id :: ns)) (hself : ∀ u ∈ ns, env.table.decl? u = some id → Known env s id) :
    Prepared env s ns where
  placed := (List.sublist_cons_self _ _).trans h.placed
  orderly := h.orderly
  fresh v hv := h.fresh v (List.mem_cons_of_mem _ hv)
  supplied u hu d hd := by
    rcases h.supplied u (List.mem_cons_of_mem _ hu) d hd with hknown | hmem
    · exact .inl hknown
    rcases List.mem_cons.1 hmem with rfl | hmem
    · exact .inl (hself u hu hd)
    · exact .inr hmem

end Prepared

end

end TypedScript.Check
