import TypedScript.Proofs.Binding.Innermost
import TypedScript.Proofs.Check.Steps
import TypedScript.Proofs.Ty.Extended

/-!
# What it is for a tree to be well typed

The rules of typing say, node by node, which type a node has if its parts and the declarations that it refers to
have the types that were recorded for them. They do not mention the checker. All of them are positive: a node that
obeys its rule goes on to do so when more types are made and more nodes get a type.

* `Denotes`: the type that a type expression stands for.
* `Returns`: what a function gives back is of its result type.
* `Obeys`: the rules, one for every form.
* `Obeys.mono`: they are kept when a typing grows.
-/

namespace TypedScript.Ast

/-- The statements that a statement consists of. -/
def Form.substatements : Form → List Nat
  | block body => body
  | ifElse _ thenBranch elseBranch => thenBranch :: elseBranch.toList
  | whileLoop _ body => [body]
  | _ => []

theorem Form.substatements_subset (f : Form) : f.substatements ⊆ f.children := by
  cases f <;> simp [Form.substatements, Form.children]

theorem Form.isType_of_mem_substatements {f : Form} {c : Nat} (h : c ∈ f.substatements) : f.isType = false := by
  cases f <;> simp_all [Form.substatements, Form.isType]

/-- The second statement is part of the first, but not of a function in it. -/
inductive Tree.Within (t : Tree) : Nat → Nat → Prop
  | here {id : Nat} : Within t id id
  | part {id c r : Nat} {f : Form} : t.form? id = some f → c ∈ f.substatements → Within t c r → Within t id r

end TypedScript.Ast

namespace TypedScript.Binding

open TypedScript.Ast TypedScript.Ast.Tree

variable {t : Tree} {id c v r : Nat} {f : Form}

theorem self_mem_listing (h : t.Linked) (hf : t.form? id = some f) : id ∈ listing t id := by
  rw [listing_eq h hf]
  exact List.mem_cons_self

/-- What is listed below a part is listed below the whole. -/
theorem listing_part (h : t.Linked) (hf : t.form? id = some f) (htype : f.isType = false) (hc : c ∈ f.children)
    (hv : v ∈ listing t c) : v ∈ listing t id := by
  rw [listing_eq h hf, htype]
  exact List.mem_cons_of_mem _ (List.mem_flatMap.2 ⟨c, hc, hv⟩)

theorem part_mem_listing (h : t.Linked) (hf : t.form? id = some f) (htype : f.isType = false)
    (hc : c ∈ f.children) :
    c ∈ listing t id := by
  obtain ⟨hpos, -⟩ := h.part_lt (mem_children.2 ⟨f, hf, hc⟩)
  exact listing_part h hf htype hc (mem_walk.2 (.here hpos))

/-- What is listed below a node is listed below every node that this one is below. -/
theorem listing_trans {u : Nat} (hv : v ∈ listing t id) (hu : u ∈ listing t v) : u ∈ listing t id := by
  refine mem_walk.2 ?_
  have hdown := mem_walk.1 hu
  induction mem_walk.1 hv with
  | here => exact hdown
  | part henter hc hlt _ ih => exact .part henter hc hlt (ih (mem_walk.2 ‹_›) hu hdown)

theorem listing_within (h : t.Linked) (hr : t.Within id r) (hv : v ∈ listing t r) : v ∈ listing t id := by
  induction hr with
  | here => exact hv
  | part hf hc _ ih =>
    exact listing_part h hf (Form.isType_of_mem_substatements hc) (Form.substatements_subset _ hc) (ih hv)

end TypedScript.Binding

namespace TypedScript.Check

open TypedScript.Ast TypedScript.Binding TypedScript.Ty

/-- The types that there are, and those that nodes have. -/
structure Typing where
  types : Interner
  info : Std.TreeMap Nat Nat

def State.typing (s : State) : Typing := ⟨s.types, s.info⟩

def Checked.typing (c : Checked) : Typing := ⟨c.types, c.info⟩

namespace Typing

variable {env : Env} {Γ Γ' : Typing} {S : Nat → Prop} {id c τ σ ρ : Nat} {f : Form}

/-- The type is recorded for the node. -/
def HasType (Γ : Typing) (id τ : Nat) : Prop := Γ.info[id]? = some τ

/-- Behind its aliases the type has the structure. -/
def Means (Γ : Typing) (τ : Nat) (t : Ty) : Prop := Γ.types.resolved? τ = some t

/-- The value of the node may stand where the type is wanted. -/
def Fits (Γ : Typing) (id want : Nat) : Prop := ∃ τ, Γ.HasType id τ ∧ Γ.types.assignable want τ = true

theorem HasType.unique (h : Γ.HasType id τ) (h' : Γ.HasType id σ) : τ = σ := Option.some.inj (h.symm.trans h')

/-! ### The rules -/

mutual

/-- The type expression stands for the type. -/
inductive Denotes (env : Env) (Γ : Typing) : Nat → Nat → Prop
  | primitive {id τ : Nat} {name : String} : env.tree.form? id = some (.typeName name) → primitive? name = some τ →
      Denotes env Γ id τ
  | synonym {id d τ : Nat} {name : String} : env.tree.form? id = some (.typeName name) → primitive? name = none →
      env.table.typeDecl? id = some d → symbolKind env.tree d = .type → Γ.HasType d τ → Denotes env Γ id τ
  | object {id τ : Nat} {fields σs : List Nat} : env.tree.form? id = some (.typeObject fields) →
      DenotesEach env Γ fields σs → Γ.types.Numbers (.object (sortProps ((fields.map env.tree.name).zip σs))) τ →
      Denotes env Γ id τ
  | func {id τ result ρ : Nat} {params σs : List Nat} : env.tree.form? id = some (.typeFunc params result) →
      DenotesEach env Γ params σs → Denotes env Γ result ρ → Γ.types.Numbers (.func σs ρ) τ → Denotes env Γ id τ

/-- The types that are written for fields or parameters stand for the types, in order. -/
inductive DenotesEach (env : Env) (Γ : Typing) : List Nat → List Nat → Prop
  | nil : DenotesEach env Γ [] []
  | cons {p w σ : Nat} {ps σs : List Nat} : (env.tree.form? p).bind (·.type?) = some w → Denotes env Γ w σ →
      DenotesEach env Γ ps σs → DenotesEach env Γ (p :: ps) (σ :: σs)

end

/-- The node has the type of a function of its parameters, and the result type is the one that is written, if one
is. -/
def Callable (env : Env) (Γ : Typing) (id : Nat) (params : List Nat) (written : Option Nat) (ρ : Nat) : Prop :=
  ∃ τ σs, Γ.HasType id τ ∧ Γ.Means τ (.func σs ρ) ∧ List.Forall₂ Γ.HasType params σs ∧ ∀ w ∈ written,
    Denotes env Γ w ρ

/-- What a body gives back is of the result type. A function without a written result may also return nothing; the
value of a body that is an expression is of no matter if the result is void. -/
def Returns (t : Tree) (Γ : Typing) (written : Option Nat) (body ρ : Nat) : Prop :=
  match t.form? body with
  | some (.block _) =>
    (∀ r x, t.Within body r → t.form? r = some (.ret (some x)) → Γ.Fits x ρ) ∧
      ∀ r, t.Within body r → t.form? r = some (.ret none) → written.isSome → ρ = voidId
  | _ => ρ ≠ voidId → Γ.Fits body ρ

/-- An operator on two operands other than the logical ones: equality compares what can be assigned one way or the
other, but no strings, and the other operators take numbers of one type. -/
def Operates (Γ : Typing) (op : BinaryOp) (id x y : Nat) : Prop :=
  ∃ α β t, Γ.HasType x α ∧ Γ.HasType y β ∧ Γ.Means α t ∧
    if op.isEquality then
      (Γ.types.assignable α β = true ∨ Γ.types.assignable β α = true) ∧ t ≠ .string ∧ Γ.HasType id boolId
    else t.isNumeric = true ∧ Γ.types.identical α β = true ∧ Γ.HasType id (if op.isArithmetic then α else boolId)

/-- The rule of a node of the given form. Forms that are no expressions and declare nothing have no type. -/
def Obeys (env : Env) (Γ : Typing) (id : Nat) : Form → Prop
  | .number _ => Γ.HasType id numberId ∨ ∃ τ width, Γ.HasType id τ ∧ Γ.Means τ (.int width)
  | .string _ => Γ.HasType id stringId
  | .bool _ => Γ.HasType id boolId
  | .null => Γ.HasType id nullId ∨ ∃ τ t, Γ.HasType id τ ∧ Γ.Means τ t ∧ t.isNullable = true
  | .this => Γ.HasType id voidId
  | .ident _ => ∃ d τ, env.table.decl? id = some d ∧ Γ.HasType d τ ∧ Γ.HasType id τ
  | .object props => props ≠ [] ∧ ∃ τ fields, Γ.HasType id τ ∧ Γ.Means τ (.object fields) ∧
      (∀ p ∈ props, ∃ σ, Γ.HasType p σ ∧ (env.tree.name p, σ) ∈ fields) ∧
      ∀ field ∈ fields, ∃ p ∈ props, env.tree.name p = field.1
  | .property _ value => ∃ σ, Γ.HasType id σ ∧ Γ.Fits value σ
  | .member base name => ∃ ο τ, Γ.HasType base ο ∧ Γ.types.prop? ο name = some (name, τ) ∧ Γ.HasType id τ
  | .call callee args => ∃ φ σs ρ, Γ.HasType callee φ ∧ Γ.Means φ (.func σs ρ) ∧ List.Forall₂ Γ.Fits args σs ∧
      Γ.HasType id ρ
  | .unary .negate x => ∃ τ t, Γ.HasType x τ ∧ Γ.Means τ t ∧ t.isNumeric = true ∧ Γ.HasType id τ
  | .unary .not x => Γ.Fits x boolId ∧ Γ.HasType id boolId
  | .binary op x y =>
    if op.isLogical then Γ.Fits x boolId ∧ Γ.Fits y boolId ∧ Γ.HasType id boolId else Γ.Operates op id x y
  | .assign target value => (∃ τ, Γ.HasType target τ ∧ Γ.Fits value τ ∧ Γ.HasType id τ) ∧
      ∀ name d, env.tree.form? target = some (.ident name) → env.table.decl? target = some d →
        symbolKind env.tree d ∉ [.constBinding, .function, .foreign]
  | .arrowFunc params written body | .funcDecl _ params written body =>
    ∃ ρ, Callable env Γ id params written ρ ∧ Γ.Returns env.tree written body ρ
  | .declareFunc _ params result => ∃ ρ, Callable env Γ id params (some result) ρ
  | .param _ written => ∃ σ, Γ.HasType id σ ∧ ∀ w ∈ written, Denotes env Γ w σ
  | .varDecl _ _ written init => ∃ τ, Γ.HasType id τ ∧ Γ.Fits init τ ∧ (∀ w ∈ written, Denotes env Γ w τ) ∧
      (written = none → Γ.HasType init τ ∧ ∃ t, Γ.Means τ t ∧ t ≠ .null)
  | .ifElse cond _ _ | .whileLoop cond _ => Γ.Fits cond boolId
  | .exprStmt x | .ret (some x) => ∃ τ, Γ.HasType x τ
  | _ => True

/-! ### Growing -/

/-- More types were made, and more nodes have one. Nodes of a set keep theirs. -/
structure GrowsOn (S : Nat → Prop) (Γ Γ' : Typing) : Prop where
  types : Γ.types.Extends Γ'.types
  info : ∀ id τ, S id → Γ.HasType id τ → Γ'.HasType id τ

/-- All nodes keep the types that they have. -/
abbrev Grows (Γ Γ' : Typing) : Prop := GrowsOn (fun _ => True) Γ Γ'

theorem Grows.refl (Γ : Typing) : Grows Γ Γ := ⟨.refl _, fun _ _ _ h => h⟩

theorem Grows.trans {Γ'' : Typing} (h : Grows Γ Γ') (h' : Grows Γ' Γ'') : Grows Γ Γ'' :=
  ⟨h.types.trans h'.types, fun id τ hid hτ => h'.info id τ hid (h.info id τ hid hτ)⟩

theorem Means.grow {t : Ty} (h : Γ.Means τ t) (hΓ : GrowsOn S Γ Γ') : Γ'.Means τ t := hΓ.types.resolved? h

theorem Means.unique {t u : Ty} (h : Γ.Means τ t) (h' : Γ.Means τ u) : t = u := Option.some.inj (h.symm.trans h')

theorem Fits.grow {want : Nat} (h : Γ.Fits id want) (hΓ : GrowsOn S Γ Γ') (hid : S id) : Γ'.Fits id want := by
  obtain ⟨τ, hτ, hassign⟩ := h
  exact ⟨τ, hΓ.info id τ hid hτ, hΓ.types.assignable hassign⟩

theorem Fits.of_hasType (h : Γ.HasType id τ) : Γ.Fits id τ := ⟨τ, h, Interner.assignable_self _ _⟩

mutual

theorem Denotes.grow (hΓ : GrowsOn S Γ Γ') (halias : ∀ d, symbolKind env.tree d = .type → S d) {id τ : Nat} :
    Denotes env Γ id τ → Denotes env Γ' id τ
  | .primitive hf hname => .primitive hf hname
  | .synonym hf hname hd hkind hτ => .synonym hf hname hd hkind (hΓ.info _ _ (halias _ hkind) hτ)
  | .object hf heach hnum => .object hf (heach.grow hΓ halias) (hnum.extends hΓ.types)
  | .func hf heach hresult hnum => .func hf (heach.grow hΓ halias) (hresult.grow hΓ halias) (hnum.extends hΓ.types)

theorem DenotesEach.grow (hΓ : GrowsOn S Γ Γ') (halias : ∀ d, symbolKind env.tree d = .type → S d)
    {ps σs : List Nat} :
    DenotesEach env Γ ps σs → DenotesEach env Γ' ps σs
  | .nil => .nil
  | .cons hw hσ heach => .cons hw (hσ.grow hΓ halias) (heach.grow hΓ halias)

end

theorem Callable.grow {params : List Nat} {written : Option Nat} (h : Callable env Γ id params written ρ)
    (hΓ : GrowsOn S Γ Γ') (halias : ∀ d, symbolKind env.tree d = .type → S d) (hid : S id)
    (hparams : ∀ p ∈ params, S p) :
    Callable env Γ' id params written ρ := by
  obtain ⟨τ, σs, hτ, hmeans, heach, hwritten⟩ := h
  refine ⟨τ, σs, hΓ.info id τ hid hτ, hmeans.grow hΓ, ?_, fun w hw => (hwritten w hw).grow hΓ halias⟩
  clear hmeans
  induction heach with
  | nil => exact .nil
  | cons hp _ ih =>
    rw [List.forall_mem_cons] at hparams
    exact .cons (hΓ.info _ _ hparams.1 hp) (ih hparams.2)

theorem Operates.grow {op : BinaryOp} {x y : Nat} (h : Γ.Operates op id x y) (hΓ : GrowsOn S Γ Γ')
    (hid : S id) (hx : S x) (hy : S y) : Γ'.Operates op id x y := by
  obtain ⟨α, β, t, hα, hβ, hmeans, hop⟩ := h
  refine ⟨α, β, t, hΓ.info x α hx hα, hΓ.info y β hy hβ, hmeans.grow hΓ, ?_⟩
  by_cases heq : op.isEquality = true
  · simp only [heq, if_true] at hop ⊢
    exact ⟨hop.1.imp hΓ.types.assignable hΓ.types.assignable, hop.2.1, hΓ.info id _ hid hop.2.2⟩
  · simp only [heq] at hop ⊢
    exact ⟨hop.1, hΓ.types.identical hop.2.1, hΓ.info id _ hid hop.2.2⟩

mutual

/-- A type expression stands for one type only. -/
theorem Denotes.unique {id τ σ : Nat} : Denotes env Γ id τ → Denotes env Γ id σ → τ = σ
  | .primitive hf hname, h' => by
    cases h' with
    | primitive hf' hname' =>
      obtain rfl := Form.typeName.inj (Option.some.inj (hf.symm.trans hf'))
      exact Option.some.inj (hname.symm.trans hname')
    | synonym hf' hname' =>
      obtain rfl := Form.typeName.inj (Option.some.inj (hf.symm.trans hf'))
      cases hname.symm.trans hname'
    | object hf' => cases hf.symm.trans hf'
    | func hf' => cases hf.symm.trans hf'
  | .synonym hf hname hd _ hτ, h' => by
    cases h' with
    | primitive hf' hname' =>
      obtain rfl := Form.typeName.inj (Option.some.inj (hf.symm.trans hf'))
      cases hname.symm.trans hname'
    | synonym hf' _ hd' _ hτ' =>
      obtain rfl := Option.some.inj (hd.symm.trans hd')
      exact hτ.unique hτ'
    | object hf' => cases hf.symm.trans hf'
    | func hf' => cases hf.symm.trans hf'
  | .object hf heach hnum, h' => by
    cases h' with
    | object hf' heach' hnum' =>
      obtain rfl := Form.typeObject.inj (Option.some.inj (hf.symm.trans hf'))
      obtain rfl := DenotesEach.unique heach heach'
      exact hnum.unique hnum'
    | primitive hf' => cases hf.symm.trans hf'
    | synonym hf' => cases hf.symm.trans hf'
    | func hf' => cases hf.symm.trans hf'
  | .func hf heach hresult hnum, h' => by
    cases h' with
    | func hf' heach' hresult' hnum' =>
      obtain ⟨rfl, rfl⟩ := Form.typeFunc.inj (Option.some.inj (hf.symm.trans hf'))
      obtain rfl := DenotesEach.unique heach heach'
      obtain rfl := Denotes.unique hresult hresult'
      exact hnum.unique hnum'
    | primitive hf' => cases hf.symm.trans hf'
    | synonym hf' => cases hf.symm.trans hf'
    | object hf' => cases hf.symm.trans hf'

theorem DenotesEach.unique {ps σs σs' : List Nat} : DenotesEach env Γ ps σs → DenotesEach env Γ ps σs' → σs = σs'
  | .nil, h' => by
    cases h'
    rfl
  | .cons hw hσ heach, h' => by
    cases h' with
    | cons hw' hσ' heach' =>
      obtain rfl := Option.some.inj (hw.symm.trans hw')
      rw [Denotes.unique hσ hσ', DenotesEach.unique heach heach']

end

theorem Returns.grow (h : env.tree.Linked) {written : Option Nat} {body : Nat} (hΓ : GrowsOn S Γ Γ')
    (hret : Γ.Returns env.tree written body ρ) (hbelow : ∀ v ∈ listing env.tree body, S v) (hbody : S body) :
    Γ'.Returns env.tree written body ρ := by
  unfold Returns at hret ⊢
  split at hret
  · refine ⟨fun r x hr hf => (hret.1 r x hr hf).grow hΓ (hbelow x ?_), hret.2⟩
    exact listing_within h hr (part_mem_listing h hf rfl (by simp [Form.children]))
  · exact fun hne => (hret hne).grow hΓ hbody

/-- A node that obeys its rule still does when the typing grows, provided that the nodes below it, the declaration
that it refers to and the aliases keep their types. -/
theorem Obeys.mono (h : env.tree.Linked) (hf : env.tree.form? id = some f) (hΓ : GrowsOn S Γ Γ')
    (halias : ∀ d, symbolKind env.tree d = .type → S d) (hdecl : ∀ d, env.table.decl? id = some d → S d)
    (hbelow : ∀ v ∈ listing env.tree id, S v) (hobeys : Obeys env Γ id f) : Obeys env Γ' id f := by
  have hself {τ : Nat} : Γ.HasType id τ → Γ'.HasType id τ := hΓ.info id τ (hbelow id (self_mem_listing h hf))
  have hpart (htype : f.isType = false) : ∀ c ∈ f.children, S c :=
    fun c hc => hbelow c (part_mem_listing h hf htype hc)
  cases f with
  | number value => exact hobeys.imp hself fun ⟨τ, width, hτ, hmeans⟩ => ⟨τ, width, hself hτ, hmeans.grow hΓ⟩
  | string value => exact hself (τ := stringId) hobeys
  | bool value => exact hself (τ := boolId) hobeys
  | this => exact hself (τ := voidId) hobeys
  | null => exact hobeys.imp hself fun ⟨τ, t, hτ, hmeans, hnullable⟩ => ⟨τ, t, hself hτ, hmeans.grow hΓ, hnullable⟩
  | ident name =>
    obtain ⟨d, τ, hd, hdτ, hτ⟩ := hobeys
    exact ⟨d, τ, hd, hΓ.info d τ (hdecl d hd) hdτ, hself hτ⟩
  | object props =>
    obtain ⟨hne, τ, fields, hτ, hmeans, hprops, hfields⟩ := hobeys
    refine ⟨hne, τ, fields, hself hτ, hmeans.grow hΓ, fun p hp => ?_, hfields⟩
    obtain ⟨σ, hσ, hmem⟩ := hprops p hp
    exact ⟨σ, hΓ.info p σ (hpart rfl p hp) hσ, hmem⟩
  | property name value =>
    obtain ⟨σ, hσ, hfits⟩ := hobeys
    exact ⟨σ, hself hσ, hfits.grow hΓ (hpart rfl value (by simp [Form.children]))⟩
  | member base name =>
    obtain ⟨ο, τ, hο, hprop, hτ⟩ := hobeys
    exact ⟨ο, τ, hΓ.info _ _ (hpart rfl base (by simp [Form.children])) hο, hΓ.types.prop? hprop, hself hτ⟩
  | call callee args =>
    obtain ⟨φ, σs, ρ, hφ, hmeans, hargs, hρ⟩ := hobeys
    have hargs' : List.Forall₂ Γ'.Fits args σs := by
      refine List.forall₂_iff_zip.2 ⟨hargs.length_eq, fun {a σ} hmem => ?_⟩
      have ha : a ∈ args := (List.of_mem_zip hmem).1
      exact ((List.forall₂_iff_zip.1 hargs).2 hmem).grow hΓ (hpart rfl a (List.mem_cons_of_mem _ ha))
    exact ⟨φ, σs, ρ, hΓ.info _ _ (hpart rfl callee List.mem_cons_self) hφ, hmeans.grow hΓ, hargs', hself hρ⟩
  | unary op x =>
    have hx : S x := hpart rfl x (by simp [Form.children])
    cases op with
    | negate =>
      obtain ⟨τ, t, hxτ, hmeans, hnumeric, hτ⟩ := hobeys
      exact ⟨τ, t, hΓ.info x τ hx hxτ, hmeans.grow hΓ, hnumeric, hself hτ⟩
    | not => exact ⟨hobeys.1.grow hΓ hx, hself hobeys.2⟩
  | binary op x y =>
    have hx : S x := hpart rfl x (by simp [Form.children])
    have hy : S y := hpart rfl y (by simp [Form.children])
    by_cases hlogical : op.isLogical = true
    · simp only [Obeys, hlogical, if_true] at hobeys ⊢
      exact ⟨hobeys.1.grow hΓ hx, hobeys.2.1.grow hΓ hy, hself hobeys.2.2⟩
    · simp only [Obeys, hlogical] at hobeys ⊢
      exact hobeys.grow hΓ (hbelow id (self_mem_listing h hf)) hx hy
  | assign target value =>
    obtain ⟨⟨τ, htarget, hvalue, hτ⟩, hplace⟩ := hobeys
    exact ⟨⟨τ, hΓ.info _ _ (hpart rfl target (by simp [Form.children])) htarget,
      hvalue.grow hΓ (hpart rfl value (by simp [Form.children])), hself hτ⟩, hplace⟩
  | arrowFunc params written body | funcDecl name params written body =>
    obtain ⟨ρ, hcallable, hreturns⟩ := hobeys
    have hparams : ∀ p ∈ params, S p := fun p hp => hpart rfl p (by simp [Form.children, hp])
    have hbody := hpart rfl body (by simp [Form.children])
    refine ⟨ρ, hcallable.grow hΓ halias (hbelow id (self_mem_listing h hf)) hparams,
      hreturns.grow h hΓ (fun v hv => ?_) hbody⟩
    exact hbelow v (listing_part h hf rfl (by simp [Form.children]) hv)
  | declareFunc name params result =>
    obtain ⟨ρ, hcallable⟩ := hobeys
    have hparams : ∀ p ∈ params, S p := fun p hp => hpart rfl p (by simp [Form.children, hp])
    exact ⟨ρ, hcallable.grow hΓ halias (hbelow id (self_mem_listing h hf)) hparams⟩
  | param name written =>
    obtain ⟨σ, hσ, hwritten⟩ := hobeys
    exact ⟨σ, hself hσ, fun w hw => (hwritten w hw).grow hΓ halias⟩
  | varDecl name isConst written init =>
    obtain ⟨τ, hτ, hfits, hwritten, hinferred⟩ := hobeys
    have hinit : S init := hpart rfl init (by simp [Form.children])
    refine ⟨τ, hself hτ, hfits.grow hΓ hinit, fun w hw => (hwritten w hw).grow hΓ halias, fun hnone => ?_⟩
    obtain ⟨hτ, t, hmeans, hne⟩ := hinferred hnone
    exact ⟨hΓ.info init τ hinit hτ, t, hmeans.grow hΓ, hne⟩
  | ifElse cond | whileLoop cond => exact hobeys.grow hΓ (hpart rfl cond (by simp [Form.children]))
  | exprStmt x =>
    obtain ⟨τ, hτ⟩ := hobeys
    exact ⟨τ, hΓ.info x τ (hpart rfl x (by simp [Form.children])) hτ⟩
  | ret value =>
    cases value with
    | none => trivial
    | some x =>
      obtain ⟨τ, hτ⟩ := hobeys
      exact ⟨τ, hΓ.info x τ (hpart rfl x (by simp [Form.children])) hτ⟩
  | _ => trivial

end Typing

end TypedScript.Check
