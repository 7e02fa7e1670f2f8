import Mathlib.Logic.Relation
import TypedScript.Check.Program
import TypedScript.Proofs.Binding.Lexical
import TypedScript.Proofs.Ty.Interned

/-!
# What checking does, step by step

Whatever the checker does consists of a few steps: it reports a problem, makes a type, declares an alias or gives
it its target, records the type of a node, or notes the type of a function. The type that it records for a
function, or for the use of the name of one, is that of the function; so each step says what is known of the type.
What every step keeps holds when checking is done.

* `Step`: the steps, and `Steps`: any number of them.
* `Goes`: what becomes of the types of functions on the way. The type of a function is noted once: while its body
  is being checked to infer its result, no type is noted.
* `Leads`: a computation goes by steps, with one rule for each way to put computations together.
-/

namespace TypedScript.Check

open TypedScript.Ast TypedScript.Binding TypedScript.Ty

variable {env : Env} {s s' s'' : State} {α β : Type} {id d type : Nat}

/-! ### Functions by name -/

/-- The node declares a function by name. -/
def DeclaresFunction (t : Tree) (d : Nat) : Prop := symbolKind t d = .function ∨ symbolKind t d = .foreign

theorem DeclaresFunction.form {t : Tree} (h : DeclaresFunction t d) :
    ∃ f, t.form? d = some f ∧ ((∃ name params result body, f = .funcDecl name params result body) ∨
      ∃ name params result, f = .declareFunc name params result) := by
  unfold DeclaresFunction symbolKind at h
  cases hf : t.form? d with
  | none => simp [hf] at h
  | some f =>
    rw [hf] at h
    cases f <;> simp_all [SymbolKind.ofForm]
    split at h <;> simp at h

/-- The node is a use of the name of the function `d`. -/
structure UsesFunction (env : Env) (id d : Nat) : Prop where
  isName : ∃ name, env.tree.form? id = some (.ident name)
  refers : env.table.decl? id = some d
  declares : DeclaresFunction env.tree d

/-- The node is no function, nor is it the declaration or the use of one. If it is a name, the name is declared. -/
structure Apart (env : Env) (id : Nat) : Prop where
  isFunction : env.tree.isFunction id = false
  declares : ¬ DeclaresFunction env.tree id
  uses : ∀ d, ¬ UsesFunction env id d
  bound : ∀ name, env.tree.form? id = some (.ident name) → env.table.decl? id ≠ none

/-- Forms that have to do with functions, or may. -/
def mayConcern : Form → Bool
  | .ident _ | .arrowFunc .. | .funcDecl .. | .declareFunc .. => true
  | _ => false

theorem Apart.of_form {f : Form} (hf : env.tree.form? id = some f) (h : mayConcern f = false) : Apart env id := by
  refine ⟨?_, fun hd => ?_, fun d hd => ?_, fun name hname => ?_⟩
  · rw [Tree.isFunction, hf]
    cases f <;> first | rfl | cases h
  · obtain ⟨g, hg, hform⟩ := hd.form
    obtain rfl := Option.some.inj (hf.symm.trans hg)
    rcases hform with ⟨_, _, _, _, rfl⟩ | ⟨_, _, _, rfl⟩ <;> cases h
  · obtain ⟨name, hname⟩ := hd.isName
    obtain rfl := Option.some.inj (hf.symm.trans hname)
    cases h
  · obtain rfl := Option.some.inj (hf.symm.trans hname)
    cases h

/-- The use of a name that is not that of a function. -/
theorem Apart.of_name {name : String} (hf : env.tree.form? id = some (.ident name))
    (hd : env.table.decl? id = some d) (h : ¬ DeclaresFunction env.tree d) : Apart env id := by
  refine ⟨by rw [Tree.isFunction, hf]; rfl, fun hdecl => ?_, fun d' huse => ?_, fun _ _ => by simp [hd]⟩
  · obtain ⟨g, hg, hform⟩ := hdecl.form
    obtain rfl := Option.some.inj (hf.symm.trans hg)
    rcases hform with ⟨_, _, _, _, heq⟩ | ⟨_, _, _, heq⟩ <;> cases heq
  · obtain rfl := Option.some.inj (hd.symm.trans huse.refers)
    exact h huse.declares

/-! ### Steps -/

/-- The type is that of a function with as many parameters. -/
def IsFuncType (types : Interner) (count type : Nat) : Prop :=
  ∃ params result, types.lookup? type = some (.func params result) ∧ params.length = count

/-- The type may be recorded for the node. -/
inductive Fits (env : Env) (s : State) (id type : Nat) : Prop
  | apart : Apart env id → Fits env s id type
  | use {d : Nat} : UsesFunction env id d → s.signatures.lookup d = some type → Fits env s id type
  | arrow {params : List Nat} {result : Option Nat} {body : Nat} : env.tree.form? id = some
      (.arrowFunc params result body) →
      IsFuncType s.types params.length type → Fits env s id type

/-- One step of checking. -/
inductive Step (env : Env) : State → State → Prop
  /-- What changes concerns what is being checked at the time. -/
  | silent {s s' : State} : s'.types = s.types → s'.info = s.info → s'.aliases = s.aliases →
      s'.signatures = s.signatures →
      s'.diagnostics = s.diagnostics → Step env s s'
  | report (s : State) (span : Source.Span) (p : Problem) :
      Step env s { s with diagnostics := s.diagnostics ++ [{ code := p.code, span, message := p.message }] }
  | intern (s : State) (t : Ty) : (∀ name target, t ≠ .synonym name target) →
      Step env s { s with types := (s.types.intern t).2 }
  /-- Aliases are declared in the order of their declarations. -/
  | newAlias (s : State) (d : Nat) (rest : List Nat) : aliasDecls env.tree =
    (s.aliases.map (·.1)).reverse ++ d :: rest →
      Step env s { s with types := (s.types.newAlias (env.tree.name d)).2,
                          aliases := (d, (s.types.newAlias (env.tree.name d)).1) :: s.aliases }
  | setAlias (s : State) (d target : Nat) :
      Step env s { s with types := s.types.setAlias ((s.aliases.lookup d).getD 0) target }
  | record (s : State) (id type : Nat) : Fits env s id type → Step env s { s with info := s.info.insert id type }
  /-- The type of a function is noted, and recorded for its declaration. -/
  | sign (s : State) (d type : Nat) : DeclaresFunction env.tree d → s.signatures.lookup d = none →
      IsFuncType s.types ((env.tree.form? d).getD .null).params.length type →
      Step env s { s with signatures := (d, type) :: s.signatures, info := s.info.insert d type }

/-- Any number of steps. -/
abbrev Steps (env : Env) : State → State → Prop := Relation.ReflTransGen (Step env)

theorem Steps.single (h : Step env s s') : Steps env s s' := Relation.ReflTransGen.single h

theorem Steps.silent (htypes : s'.types = s.types) (hinfo : s'.info = s.info) (haliases : s'.aliases = s.aliases)
    (hsignatures : s'.signatures = s.signatures) (hdiagnostics : s'.diagnostics = s.diagnostics) : Steps env s s' :=
  .single (.silent htypes hinfo haliases hsignatures hdiagnostics)

/-- What every step keeps is kept. -/
theorem Steps.keep {P : State → Prop} (hstep : ∀ s s', Step env s s' → P s → P s') (h : Steps env s s')
    (hs : P s) : P s' := by
  induction h with
  | refl => exact hs
  | tail _ hlast ih => exact hstep _ _ hlast ih

/-! ### What becomes of the types of functions -/

/-- The result of the function is to be inferred. -/
def IsInferred (t : Tree) (d : Nat) : Prop := ((t.form? d).getD .null).type? = none

/-- Nothing was found out about functions by name. -/
structure Same (s s' : State) : Prop where
  signatures : s'.signatures = s.signatures
  busy : s'.busy = s.busy

/-- Types of functions that were noted stay. None is noted for a function that is to be inferred while its body is
being checked. -/
structure Goes (env : Env) (s s' : State) : Prop where
  noted : ∀ d type, s.signatures.lookup d = some type → s'.signatures.lookup d = some type
  busy : s'.busy = s.busy
  waiting : ∀ d ∈ s.busy, IsInferred env.tree d → s.signatures.lookup d = none → s'.signatures.lookup d = none

/-- As `Goes`, but in the end the function `id` is left. -/
structure GoesOut (env : Env) (id : Nat) (s s' : State) : Prop where
  noted : ∀ d type, s.signatures.lookup d = some type → s'.signatures.lookup d = some type
  busy : s'.busy = s.busy.erase id
  waiting : ∀ d ∈ s.busy, IsInferred env.tree d → s.signatures.lookup d = none → s'.signatures.lookup d = none

theorem Goes.trans (h : Goes env s s') (h' : Goes env s' s'') : Goes env s s'' where
  noted d type hd := h'.noted d type (h.noted d type hd)
  busy := h'.busy.trans h.busy
  waiting d hd hinf hnone := h'.waiting d (h.busy.symm ▸ hd) hinf (h.waiting d hd hinf hnone)

theorem Goes.trans_out (h : Goes env s s') (h' : GoesOut env id s' s'') : GoesOut env id s s'' where
  noted d type hd := h'.noted d type (h.noted d type hd)
  busy := by rw [h'.busy, h.busy]
  waiting d hd hinf hnone := h'.waiting d (h.busy.symm ▸ hd) hinf (h.waiting d hd hinf hnone)

theorem Same.goes (h : Same s s') : Goes env s s' :=
  ⟨fun d type hd => by rw [h.signatures, hd], h.busy, fun d _ _ hnone => by rw [h.signatures, hnone]⟩

/-- A relation that holds if nothing is found out about functions, and between the ends of a sequence if it holds
of its parts. -/
class Loose (R : State → State → Prop) : Prop where
  of_same {s s' : State} : Same s s' → R s s'
  trans {s s' s'' : State} : R s s' → R s' s'' → R s s''

instance : Loose Same := ⟨fun h => h, fun h h' => ⟨h'.signatures.trans h.signatures, h'.busy.trans h.busy⟩⟩

instance : Loose (Goes env) := ⟨Same.goes, Goes.trans⟩

/-! ### Computations -/

/-- From `s` the computation goes by steps to a state that is related to `s`, and its result has the property. -/
structure Leads (env : Env) (R : State → State → Prop) (s : State) (act : CheckM α)
    (Q : State → α → Prop) : Prop where
  steps : Steps env s (act.run s).2
  related : R s (act.run s).2
  result : Q (act.run s).2 (act.run s).1

/-- The computation goes by steps to a related state, wherever it starts. -/
def Runs (env : Env) (R : State → State → Prop) (act : CheckM α) : Prop := ∀ s, Leads env R s act fun _ _ => True

namespace Leads

variable {R R' R'' : State → State → Prop} {act : CheckM α} {Q Q' : State → α → Prop} {P : State → β → Prop}

theorem imp (h : Leads env R s act Q) (hQ : ∀ s' a, Q s' a → Q' s' a) : Leads env R s act Q' :=
  ⟨h.steps, h.related, hQ _ _ h.result⟩

/-- One computation after another, with the way in which relations compose. -/
theorem seq (htrans : ∀ s s' s'', R s s' → R' s' s'' → R'' s s'') {f : α → CheckM β} (h : Leads env R s act Q)
    (hf : ∀ s' a, R s s' → Q s' a → Leads env R' s' (f a) P) : Leads env R'' s (act >>= f) P := by
  have hthen := hf _ _ h.related h.result
  exact ⟨h.steps.trans hthen.steps, htrans _ _ _ h.related hthen.related, hthen.result⟩

theorem bind [Loose R] {f : α → CheckM β} (h : Leads env R s act Q)
    (hf : ∀ s' a, R s s' → Q s' a → Leads env R s' (f a) P) : Leads env R s (act >>= f) P := by
  have htrans (s s' s'' : State) : R s s' → R s' s'' → R s s'' := Loose.trans
  exact h.seq htrans hf

theorem pure [Loose R] {a : α} (h : Q s a) : Leads env R s (pure a) Q := ⟨.refl, Loose.of_same ⟨rfl, rfl⟩, h⟩

theorem ite {p : Prop} [Decidable p] {act act' : CheckM α} (h : p → Leads env R s act Q)
    (h' : ¬ p → Leads env R s act' Q) :
    Leads env R s (if p then act else act') Q := by
  split
  · exact h ‹_›
  · exact h' ‹_›

end Leads

namespace Runs

variable {R : State → State → Prop} {act : CheckM α} {P : State → β → Prop}

/-- What follows does not depend on how the first computation went. -/
theorem andThen [Loose R] {f : α → CheckM β} (h : Runs env R act) (hf : ∀ s a, Leads env R s (f a) P) :
    Leads env R s (act >>= f) P := (h s).bind fun s' a _ _ => hf s' a

theorem bind [Loose R] {f : α → CheckM β} (h : Runs env R act) (hf : ∀ a, Runs env R (f a)) :
    Runs env R (act >>= f) :=
  fun _ => h.andThen fun s a => hf a s

theorem pure [Loose R] (a : α) : Runs env R (pure a) := fun _ => .pure trivial

theorem get [Loose R] : Runs env R get := fun _ => ⟨.refl, Loose.of_same ⟨rfl, rfl⟩, trivial⟩

theorem forM [Loose R] {f : β → CheckM PUnit} {xs : List β} (h : ∀ x ∈ xs, Runs env R (f x)) : Runs env R
    (xs.forM f) := by
  induction xs with
  | nil => exact pure ()
  | cons x xs ih => exact (h x List.mem_cons_self).bind fun _ => ih fun y hy => h y (List.mem_cons_of_mem x hy)

theorem ite {p : Prop} [Decidable p] {act act' : CheckM α} (h : Runs env R act) (h' : Runs env R act') :
    Runs env R (if p then act else act') := fun s => .ite (fun _ => h s) fun _ => h' s

/-- Only the result of a computation is left out. -/
theorem discard [Loose R] (h : Runs env R act) : Runs env R (do let _ ← act) := h.bind fun _ => pure ()

end Runs

/-! ### Primitives -/

section

variable {R : State → State → Prop} [Loose R]

theorem leads_get : Leads env R s get fun s' s₀ => s = s' ∧ s = s₀ := ⟨.refl, Loose.of_same ⟨rfl, rfl⟩, rfl, rfl⟩

theorem runs_report (span : Source.Span) (p : Problem) : Runs env R (report span p) :=
  fun s => ⟨.single (.report s span p), Loose.of_same ⟨rfl, rfl⟩, trivial⟩

theorem leads_record (h : type ≠ 0 → Fits env s id type) : Leads env R s (record id type) fun _ _ => True := by
  unfold record
  exact .ite (fun hne => ⟨.single (.record s id type (h hne)), Loose.of_same ⟨rfl, rfl⟩, trivial⟩) fun _ =>
    .pure trivial

/-- Any type can be recorded for what has nothing to do with functions. -/
theorem runs_record (h : Apart env id) (type : Nat) : Runs env R (record id type) :=
  fun _ => leads_record fun _ => .apart h

theorem runs_resolved? (type : Nat) : Runs env R (resolved? type) := Runs.get.bind fun _ => .pure _

theorem runs_typeText (type : Nat) : Runs env R (typeText type) := Runs.get.bind fun _ => .pure _

theorem runs_assignable (dst src : Nat) : Runs env R (assignable dst src) := Runs.get.bind fun _ => .pure _

theorem runs_internObject (props : List (String × Nat)) : Runs env R (internObject props) :=
  fun s => ⟨.single (.intern s _ nofun), Loose.of_same ⟨rfl, rfl⟩, trivial⟩

/-- A function type has as many parameters as were given. -/
theorem leads_internFunc (params : List Nat) (result : Nat) :
    Leads env R s (internFunc params result) fun s' type => IsFuncType s'.types params.length type :=
  ⟨.single (.intern s _ nofun), Loose.of_same ⟨rfl, rfl⟩, _, _, Interner.lookup?_func s.types params result, rfl⟩

theorem runs_internFunc (params : List Nat) (result : Nat) : Runs env R (internFunc params result) :=
  fun _ => (leads_internFunc params result).imp fun _ _ _ => trivial

theorem runs_reportMismatch (span : Source.Span) (want got : Nat) : Runs env R (reportMismatch span want got) :=
  (runs_typeText got).bind fun _ => (runs_typeText want).bind fun _ => runs_report _ _

theorem runs_expect (span : Source.Span) (want got : Nat) : Runs env R (expect span want got) :=
  .ite ((runs_assignable want got).bind fun _ => .ite (runs_reportMismatch span want got) (.pure ())) (.pure ())

theorem runs_modifyFrame (f : Frame → Frame) : Runs env R (modifyFrame f) := by
  intro s
  obtain ⟨_, _, _, _, _, _, _, _ | ⟨top, outer⟩, _⟩ := s <;>
    exact ⟨.silent rfl rfl rfl rfl rfl, Loose.of_same ⟨rfl, rfl⟩, trivial⟩

theorem runs_reportMissing (span : Source.Span) (present : List String) (props : List (String × Nat)) :
    Runs env R (reportMissing span present props) :=
  Runs.bind (.forM fun _ _ => runs_report _ _) fun _ => .pure _

/-! ### Type expressions -/

theorem runs_fieldProps {t : Tree} {sub : Nat → CheckM Nat} (hsub : ∀ c, Runs env R (sub c)) (fields : List Nat)
    (props : List (String × Nat)) : Runs env R (fieldProps t sub fields props) := by
  induction fields generalizing props with
  | nil => exact .pure _
  | cons f rest ih =>
    unfold fieldProps
    split
    · refine .ite ((runs_report _ _).bind fun _ => ih _) ((hsub _).bind fun _ => .ite (.pure _) (ih _))
    · exact ih _

theorem runs_paramTypesOfType {t : Tree} {sub : Nat → CheckM Nat} (hsub : ∀ c, Runs env R (sub c))
    (params : List Nat) :
    Runs env R (paramTypesOfType t sub params) := by
  induction params with
  | nil => exact .pure _
  | cons p rest ih =>
    unfold paramTypesOfType
    dsimp only
    split
    · refine (hsub _).bind fun type => .ite ((runs_report _ _).bind fun _ => .pure _) (ih.bind fun types => ?_)
      split <;> exact .pure _
    · refine (Runs.pure 0).bind fun type => .ite ((runs_report _ _).bind fun _ => .pure _) (ih.bind fun types => ?_)
      split <;> exact .pure _

/-- The induction is on the number of the type expression, whose parts have smaller ones. -/
theorem runs_resolveType (id : Nat) : Runs env R (resolveType env id) := by
  induction id using Nat.strongRecOn with
  | ind id ih =>
    have hsub (c : Nat) : Runs env R (if _h : c < id then resolveType env c else pure 0) := by
      split
      · exact ih c ‹_›
      · exact .pure 0
    unfold resolveType
    dsimp only
    split
    · split
      · exact .pure _
      · split
        · exact Runs.get.bind fun _ => .pure _
        · exact .pure _
    · refine .ite ((runs_report _ _).bind fun _ => .pure _) ((runs_fieldProps hsub _ _).bind fun props => ?_)
      split
      · exact runs_internObject _
      · exact .pure _
    · refine (runs_paramTypesOfType hsub _).bind fun params => ?_
      split
      · exact .pure _
      · exact (hsub _).bind fun result => .ite (.pure _) (runs_internFunc _ _)
    · exact .pure _

theorem runs_resolveType? (written : Option Nat) : Runs env R (resolveType? env written) := by
  unfold resolveType?
  split
  · exact runs_resolveType _
  · exact .pure _

/-- If all parameters have types, there is one for each. -/
theorem leads_paramTypes (expected : Option Ty) {params : List Nat}
    (hparams : ∀ p ∈ params, ∃ name type, env.tree.form? p = some (.param name type)) (i : Nat) :
    Leads env R s (paramTypes env expected params i) fun _ r => ∀ types, r = some types → types.length =
      params.length := by
  induction params generalizing s i with
  | nil => exact .pure fun types h => by cases h; rfl
  | cons p rest ih =>
    obtain ⟨name, written, hp⟩ := hparams p List.mem_cons_self
    have hothers (s₁ : State) (type : Nat) : Leads env R s₁ (do
        let others ← paramTypes env expected rest (i + 1)
        return if type = 0 then none else others.map (type :: ·)) fun _ r => ∀ types, r = some types →
          types.length = (p :: rest).length := by
      refine (ih (fun q hq => hparams q (List.mem_cons_of_mem p hq)) (i + 1)).bind fun s₂ others _ hothers =>
        .pure ?_
      intro types htypes
      split at htypes
      · exact nomatch htypes
      · obtain ⟨others, rfl, rfl⟩ := Option.map_eq_some_iff.1 htypes
        simp [hothers _ rfl]
    have htyped (s₁ : State) (type : Nat) : Leads env R s₁ (do
        if type ≠ 0 then let _ ← record p type
        let others ← paramTypes env expected rest (i + 1)
        return if type = 0 then none else others.map (type :: ·)) fun _ r => ∀ types, r = some types →
          types.length = (p :: rest).length := by
      refine .ite (fun _ => ?_) fun _ => hothers s₁ type
      exact Runs.andThen (runs_record (.of_form hp rfl) type) fun s₂ _ => hothers s₂ type
    unfold paramTypes
    dsimp only
    split
    · exact (runs_resolveType _).andThen htyped
    · split
      · split
        · exact (Runs.pure _).andThen htyped
        · exact (runs_report _ _).andThen fun s₁ _ => (Runs.pure 0).andThen htyped
      · exact (runs_report _ _).andThen fun s₁ _ => (Runs.pure 0).andThen htyped

end

/-! ### Aliases -/

theorem form_of_mem_aliasDecls {t : Tree} (h : d ∈ aliasDecls t) : ∃ f, t.form? d = some f ∧
    mayConcern f = false := by
  have hkind : symbolKind t d = .type := of_decide_eq_true (List.mem_filter.1 h).2
  unfold symbolKind at hkind
  cases hf : t.form? d with
  | none => simp [hf] at hkind
  | some f =>
    rw [hf] at hkind
    exact ⟨f, rfl, by cases f <;> first | rfl | exact nomatch hkind⟩

/-- Declares one alias, which stands for nothing yet. -/
def declareAlias (env : Env) (d : Nat) : CheckM Unit := do
  let id ← modifyGet fun s => let (id, types) := s.types.newAlias (env.tree.name d); (id, { s with types })
  modify fun s => { s with aliases := (d, id) :: s.aliases }
  let _ ← record d id

/-- The induction is on the declarations that are left. -/
theorem leads_declareAlias {rest : List Nat} (h : aliasDecls env.tree = (s.aliases.map (·.1)).reverse ++ rest) :
    Leads env Same s (rest.forM (declareAlias env)) fun _ _ => True := by
  induction rest generalizing s with
  | nil => exact .pure trivial
  | cons d rest ih =>
    obtain ⟨f, hf, hplain⟩ :=
      form_of_mem_aliasDecls (t := env.tree) (h ▸ List.mem_append_right _ List.mem_cons_self)
    let types := (s.types.newAlias (env.tree.name d)).2
    let id := (s.types.newAlias (env.tree.name d)).1
    let s₁ : State := { s with types, aliases := (d, id) :: s.aliases }
    have hrecord : Leads env Same s₁ (record d id) fun _ _ => True :=
      leads_record fun _ => .apart (.of_form hf hplain)
    have hfirst : Leads env Same s (declareAlias env d) fun s' _ => s'.aliases = (d, id) :: s.aliases := by
      refine ⟨.head (.newAlias s d rest h) hrecord.steps, ⟨hrecord.related.signatures, hrecord.related.busy⟩, ?_⟩
      change (record d id |>.run s₁).2.aliases = s₁.aliases
      unfold record
      split <;> rfl
    refine hfirst.bind fun s' _ _ haliases => ih ?_
    rw [h, haliases]
    simp

theorem leads_declareAliases (h : s.aliases = []) : Leads env Same s (declareAliases env) fun _ _ => True := by
  have hdeclare : Leads env Same s ((aliasDecls env.tree).forM (declareAlias env)) fun _ _ => True :=
    leads_declareAlias (by rw [h]; rfl)
  refine hdeclare.bind fun s₁ _ _ _ => Runs.andThen (.forM fun d _ => ?_) fun s₂ _ => Runs.forM (fun d _ => ?_) s₂
  · refine (runs_resolveType? _).bind fun target s => ?_
    exact ⟨.single (.setAlias s d target), Loose.of_same ⟨rfl, rfl⟩, trivial⟩
  · exact Runs.get.bind fun _ => .ite (runs_report _ _) (.pure _)

/-! ### Functions -/

theorem IsFuncType.ne_zero {types : Interner} {count : Nat} (h : IsFuncType types count type) : type ≠ 0 := by
  rintro rfl
  obtain ⟨params, result, hlookup, -⟩ := h
  exact nomatch hlookup

/-- The type of a function is noted if none was before, and if it is not about to be inferred. -/
theorem leads_sign (hdecl : DeclaresFunction env.tree id) (hnone : s.signatures.lookup id = none)
    (hfree : IsInferred env.tree id → id ∉ s.busy) {params : List Nat}
    (hlength : params.length = ((env.tree.form? id).getD .null).params.length) (result : Nat) :
    Leads env (Goes env) s (do
      let type ← internFunc params result
      modify fun s => { s with signatures := (id, type) :: s.signatures }
      record id type) fun s' type => s'.signatures.lookup id = some type := by
  have hintern : Leads env Same s (internFunc params result) fun s' type =>
    IsFuncType s'.types params.length type :=
    leads_internFunc params result
  refine hintern.seq (fun _ _ _ h h' => h.goes.trans h') fun s₁ type hsame hfunc => ?_
  rw [← hsame.signatures] at hnone
  rw [← hsame.busy] at hfree
  have hrun : (do
      modify fun s => { s with signatures := (id, type) :: s.signatures }
      record id type : CheckM Nat).run s₁ =
      (type, { s₁ with signatures := (id, type) :: s₁.signatures, info := s₁.info.insert id type }) := by
    unfold record
    rw [if_pos hfunc.ne_zero]
    rfl
  constructor
  · rw [hrun]
    exact .single (.sign s₁ id type hdecl hnone (hlength ▸ hfunc))
  · rw [hrun]
    refine ⟨fun d type' hd => ?_, rfl, fun d hd hinferred hd' => ?_⟩
    · have hne : d ≠ id := by
        rintro rfl
        exact nomatch hnone.symm.trans hd
      simpa [List.lookup_cons, beq_false_of_ne hne] using hd
    · have hne : d ≠ id := by
        rintro rfl
        exact hfree hinferred hd
      simpa [List.lookup_cons, beq_false_of_ne hne] using hd'
  · rw [hrun]
    exact List.lookup_cons_self

/-- The body of a function is entered, and left at the end of the computation. No type is noted for the function
meanwhile if it is to be inferred. -/
theorem leads_enter {act : CheckM α}
    (h : Leads env (GoesOut env id) { s with done := id :: s.done, busy := id :: s.busy } act fun _ _ => True) :
    Leads env (Goes env) s (do
      modify fun s => { s with done := id :: s.done, busy := id :: s.busy }
      act) fun s' _ => IsInferred env.tree id → s.signatures.lookup id = none → s'.signatures.lookup id = none where
  steps := by
    have hsilent : Steps env s { s with done := id :: s.done, busy := id :: s.busy } := .silent rfl rfl rfl rfl rfl
    exact hsilent.trans h.steps
  related :=
    { noted := h.related.noted
      busy := h.related.busy.trans (by simp)
      waiting := fun d hd => h.related.waiting d (List.mem_cons_of_mem id hd) }
  result := h.related.waiting id List.mem_cons_self

end TypedScript.Check
