import TypedScript.Proofs.Check.Quiet

/-!
# Types that are written

If nothing is reported, every type expression stands for a type, and resolving it only makes types. Once all
aliases have their targets and none of them leads to itself, every type has a structure.

* `quiet_resolveType`: what a type expression is resolved to.
* `quiet_declareAliases`: the state in which the first statement is checked.
-/

namespace TypedScript.Check

open TypedScript.Ast TypedScript.Binding TypedScript.Ty Typing

variable {env : Env} {s s' s'' : State} {P : Prop} {id : Nat}

/-! ### Making types -/

/-- Only types were made, and no aliases. -/
structure Interns (s s' : State) : Prop where
  state : s' = { s with types := s'.types }
  types : s.types.Extends s'.types
  stocked : s'.types.Stocked
  sound : s.types.Sound → s'.types.Sound
  synonyms : ∀ id name target, s'.types.lookup? id = some (.synonym name target) →
    s.types.lookup? id = some (.synonym name target)

namespace Interns

theorem refl (h : s.types.Stocked) : Interns s s := ⟨rfl, .refl _, h, id, fun _ _ _ => id⟩

theorem trans (h : Interns s s') (h' : Interns s' s'') : Interns s s'' where
  state := by
    rw [h'.state, h.state]
  types := h.types.trans h'.types
  stocked := h'.stocked
  sound hs := h'.sound (h.sound hs)
  synonyms id name target hid := h.synonyms id name target (h'.synonyms id name target hid)

theorem info (h : Interns s s') : s'.info = s.info := by rw [h.state]

theorem aliases (h : Interns s s') : s'.aliases = s.aliases := by rw [h.state]

theorem signatures (h : Interns s s') : s'.signatures = s.signatures := by rw [h.state]

theorem busy (h : Interns s s') : s'.busy = s.busy := by rw [h.state]

theorem done (h : Interns s s') : s'.done = s.done := by rw [h.state]

theorem frames (h : Interns s s') : s'.frames = s.frames := by rw [h.state]

theorem hasType (h : Interns s s') {v τ : Nat} : s'.typing.HasType v τ ↔ s.typing.HasType v τ := by
  change s'.info[v]? = some τ ↔ s.info[v]? = some τ
  rw [h.info]

theorem typing (h : Interns s s') : Grows s.typing s'.typing := ⟨h.types, fun _ _ _ hτ => h.hasType.2 hτ⟩

theorem spreads (h : Interns s s') : Spreads env s s' [] :=
  ⟨h.typing, h.busy, fun _ τ hτ => .inl ⟨τ, h.hasType.1 hτ⟩, fun _ hv => .inl (h.done ▸ hv),
    fun _ hv => h.done ▸ hv⟩

end Interns

/-- A type was made that is no alias. -/
theorem interns_intern (hs : s.types.Stocked) {t : Ty} (hnamed : t.IsNamed) (hparts : ∀ p ∈ t.parts, s.types.Has p)
    (hne : ∀ name target, t ≠ .synonym name target) : Interns s { s with types := (s.types.intern t).2 } where
  state := rfl
  types := Interner.extends_intern s.types t
  stocked := hs.intern hnamed hparts hne
  sound h := h.intern hne
  synonyms id name target hid := by
    change (s.types.intern t).2.lookup? id = _ at hid
    by_cases hold : s.types.Has id
    · obtain ⟨u, hu⟩ := hold
      have hsame := (Interner.extends_intern s.types t).lookup? hu
      rwa [← hsame.symm.trans hid]
    · -- what is new is no alias
      exfalso
      unfold Interner.intern at hid
      split at hid
      · exact hold ⟨_, hid⟩
      · have hhas := Interner.has_iff.1 ⟨_, hid⟩
        have hlast : id = s.types.types.size + 1 := by
          have hnot := mt Interner.has_iff.2 hold
          simp at hhas
          omega
        subst hlast
        exact hne name target (by simpa [Interner.lookup?] using hid)

/-- Orderly states stay so when types are made. -/
theorem Orderly.interns (h : Orderly env s) (hi : Interns s s') : Orderly env s' where
  stocked := hi.stocked
  sound := hi.sound h.sound
  has v τ hτ := (h.has v τ (hi.hasType.1 hτ)).extends hi.types
  aliases d hd := by
    obtain ⟨τ, hlookup, hτ⟩ := h.aliases d hd
    exact ⟨τ, hi.aliases ▸ hlookup, hi.hasType.2 hτ⟩
  signed d τ hd := by
    obtain ⟨hdecl, hτ, hsigned⟩ := h.signed d τ (hi.signatures ▸ hd)
    exact ⟨hdecl, hi.hasType.2 hτ, hsigned.grow hi.typing (fun _ _ => trivial) trivial fun _ _ => trivial⟩
  unsigned d hd hnone := by
    rw [hi.info]
    exact h.unsigned d hd (hi.signatures ▸ hnone)
  busy d hd := hi.done ▸ h.busy d (hi.busy ▸ hd)

theorem Prepared.interns {ns : List Nat} (h : Prepared env s ns) (hi : Interns s s') : Prepared env s' ns where
  placed := h.placed
  orderly := h.orderly.interns hi
  supplied u hu d hd := (h.supplied u hu d hd).imp_left fun hknown => hknown.spread hi.spreads
  fresh v hv := ⟨hi.done ▸ (h.fresh v hv).1, fun τ hτ => (h.fresh v hv).2 τ (hi.hasType.1 hτ)⟩

theorem quiet_internFunc {params : List Nat} {result : Nat} : Quiet
    (s.types.Stocked ∧ (∀ p ∈ params, s.types.Has p) ∧
    s.types.Has result) s (internFunc params result) fun s' τ => Interns s s' ∧ s'.types.Numbers
      (.func params result) τ ∧
      s'.types.lookup? τ = some (.func params result) := by
  refine ⟨Nat.le_refl _, fun ⟨hs, hparams, hresult⟩ _ => ?_⟩
  have hparts : ∀ p ∈ (Ty.func params result).parts, s.types.Has p := List.forall_mem_cons.2 ⟨hresult, hparams⟩
  exact ⟨interns_intern hs trivial hparts nofun, Interner.numbers_intern _ rfl,
    Interner.lookup?_func s.types params result⟩

theorem quiet_internObject {props : List (String × Nat)} : Quiet (s.types.Stocked ∧ ∀ p ∈ props, '=' ∉ p.1.toList ∧
    s.types.Has p.2) s (internObject props) fun s' τ => Interns s s' ∧ s'.types.Numbers
      (.object (sortProps props)) τ ∧
      s'.types.lookup? τ = some (.object (sortProps props)) := by
  refine ⟨Nat.le_refl _, fun ⟨hs, hprops⟩ _ => ?_⟩
  have hmem {p : String × Nat} (hp : p ∈ sortProps props) : p ∈ props := (Order.sorted_perm _ props).mem_iff.1 hp
  have hnamed : Ty.IsNamed (.object (sortProps props)) := fun p hp => (hprops p (hmem hp)).1
  have hparts : ∀ p ∈ (Ty.object (sortProps props)).parts, s.types.Has p := by
    intro p hp
    obtain ⟨q, hq, rfl⟩ := List.mem_map.1 hp
    exact (hprops q (hmem hq)).2
  exact ⟨interns_intern hs hnamed hparts nofun, Interner.numbers_intern _ rfl, hs.lookup?_object hnamed⟩

/-! ### Type expressions -/

/-- The aliases that are declared can be referred to. -/
structure Supplies (env : Env) (s : State) : Prop where
  stocked : s.types.Stocked
  aliases : ∀ d ∈ aliasDecls env.tree, ∃ τ, s.aliases.lookup d = some τ ∧ s.typing.HasType d τ ∧ s.types.Has τ

theorem Orderly.supplies (h : Orderly env s) : Supplies env s where
  stocked := h.stocked
  aliases d hd := by
    obtain ⟨τ, hlookup, hτ⟩ := h.aliases d hd
    exact ⟨τ, hlookup, hτ, h.has d τ hτ⟩

theorem Supplies.interns (h : Supplies env s) (hi : Interns s s') : Supplies env s' where
  stocked := hi.stocked
  aliases d hd := by
    obtain ⟨τ, hlookup, hτ, hhas⟩ := h.aliases d hd
    exact ⟨τ, hi.aliases ▸ hlookup, hi.hasType.2 hτ, hhas.extends hi.types⟩

/-- The type expression was resolved to the type that it stands for. -/
structure Resolves (env : Env) (s s' : State) (id τ : Nat) : Prop where
  interns : Interns s s'
  has : s'.types.Has τ
  denotes : Denotes env s'.typing id τ

/-- The types that are written for fields or parameters were resolved. -/
structure ResolvesEach (env : Env) (s s' : State) (ids τs : List Nat) : Prop where
  interns : Interns s s'
  has : ∀ τ ∈ τs, s'.types.Has τ
  denotes : DenotesEach env s'.typing ids τs

theorem ResolvesEach.nil (h : s.types.Stocked) : ResolvesEach env s s [] [] := ⟨.refl h, nofun, .nil⟩

theorem ResolvesEach.cons {p w τ : Nat} {ps τs : List Nat} (hw : (env.tree.form? p).bind (·.type?) = some w)
    (h : Resolves env s s' w τ) (h' : ResolvesEach env s' s'' ps τs) : ResolvesEach env s s''
    (p :: ps) (τ :: τs) where
  interns := h.interns.trans h'.interns
  has := List.forall_mem_cons.2 ⟨h.has.extends h'.interns.types, h'.has⟩
  denotes := .cons hw (h.denotes.grow h'.interns.typing fun _ _ => trivial) h'.denotes

/-- Under the assumption the type expression is resolved, whatever the state. -/
def ResolvesBy (env : Env) (A : Prop) (sub : Nat → CheckM Nat) (c : Nat) : Prop :=
  ∀ s, Quiet (Supplies env s ∧ A) s (sub c) fun s' τ => Resolves env s s' c τ

variable {A : Prop} {sub : Nat → CheckM Nat}

theorem quiet_fieldProps (fields : List Nat) (hfields : ∀ f ∈ fields, ∃ name type,
    env.tree.form? f = some (.typeField name type) ∧ ResolvesBy env A sub type) (props : List (String × Nat))
      (s : State) :
    Quiet (Supplies env s ∧ A) s (fieldProps env.tree sub fields props) fun s' r => ∃ τs,
      ResolvesEach env s s' fields τs ∧
      r = some (props.reverse ++ (fields.map env.tree.name).zip τs) := by
  induction fields generalizing props s with
  | nil => exact .pure fun hs => ⟨[], .nil hs.1.stocked, by simp⟩
  | cons f rest ih =>
    rw [List.forall_mem_cons] at hfields
    obtain ⟨⟨name, type, hf, hsub⟩, hrest⟩ := hfields
    have hname : env.tree.name f = name := by simp [Tree.name, hf, Form.name]
    simp only [fieldProps, hf]
    refine .ite (fun _ => .reported fun s' => (ih hrest props s').void) fun _ => ?_
    refine (hsub s).bind id fun s₁ τ => .known (fun hs => hs.2.has.ne_zero) fun _ => ?_
    refine (ih hrest _ s₁).imp (fun hs => ⟨hs.1.1.interns hs.2.interns, hs.1.2⟩) ?_
    rintro s₂ r ⟨hs, hτ⟩ ⟨τs, heach, rfl⟩
    exact ⟨τ :: τs, .cons (by simp [hf, Form.type?]) hτ heach, by simp [hname]⟩

theorem quiet_paramTypesOfType (params : List Nat) (hparams : ∀ p ∈ params, ∃ name type,
    env.tree.form? p = some (.param name type) ∧ ∀ w ∈ type, ResolvesBy env A sub w) (s : State) :
    Quiet (Supplies env s ∧ A) s (paramTypesOfType env.tree sub params) fun s' r => ∃ τs,
      ResolvesEach env s s' params τs ∧
      r = some τs := by
  induction params generalizing s with
  | nil => exact .pure fun hs => ⟨[], .nil hs.1.stocked, rfl⟩
  | cons p rest ih =>
    rw [List.forall_mem_cons] at hparams
    obtain ⟨⟨name, type, hp, hsub⟩, hrest⟩ := hparams
    cases type with
    | none =>
      simp only [paramTypesOfType, hp, Option.bind_some, Form.type?, pure_bind, if_true]
      exact .reported_pure
    | some w =>
      simp only [paramTypesOfType, hp, Option.bind_some, Form.type?]
      refine (hsub w rfl s).bind id fun s₁ τ => .ite (fun _ => .reported_pure) fun _ => ?_
      refine (ih hrest s₁).bind (fun hs => ⟨hs.1.1.interns hs.2.interns, hs.1.2⟩) fun s₂ r => ?_
      cases r with
      | none => exact .pure (by rintro ⟨-, τs, -, ⟨⟩⟩)
      | some τs =>
        refine .pure ?_
        rintro ⟨⟨hs, hτ⟩, τs', heach, hsome⟩
        obtain rfl := Option.some.inj hsome
        exact ⟨τ :: τs, .cons (by simp [hp, Form.type?]) hτ heach, rfl⟩

/-- A name stands for a type of the language, or for an alias. -/
theorem quiet_typeName (hscene : Scene env) {id : Nat} {name : String}
    (hf : env.tree.form? id = some (.typeName name)) (s : State) :
    Quiet (Supplies env s ∧ id ∈ env.tree.reached) s (match Ty.primitive? name with
      | some type => return type
      | none => match env.table.typeDecl? id with
        | some d => return ((← get).aliases.lookup d).getD 0
        | none => return 0) fun s' τ => Resolves env s s' id τ := by
  cases hname : primitive? name with
  | some τ =>
    exact .pure fun hs => ⟨.refl hs.1.stocked, hs.1.stocked.has_primitive name hname, .primitive hf hname⟩
  | none =>
    cases hdecl : env.table.typeDecl? id with
    | none =>
      refine .pure fun hs => ?_
      obtain ⟨d, -, hd⟩ := hscene.typeBound id hs.2 name hf hname
      cases hdecl.symm.trans hd
    | some d =>
      refine .read (.pure ?_)
      rintro ⟨hs, hreached⟩
      obtain ⟨d', hd, hdecl'⟩ := hscene.typeBound id hreached name hf hname
      obtain rfl := Option.some.inj (hdecl.symm.trans hdecl')
      obtain ⟨τ, hlookup, hτ, hhas⟩ := hs.aliases d hd
      rw [hlookup]
      exact ⟨.refl hs.stocked, hhas, .synonym hf hname hdecl (by simpa using (List.mem_filter.1 hd).2) hτ⟩

/-- An object type stands for the object of what its fields stand for. -/
theorem quiet_typeObject (hscene : Scene env) {id : Nat} {fields : List Nat}
    (hf : env.tree.form? id = some (.typeObject fields)) (hfields : ∀ c ∈ fields, ∃ name type,
      env.tree.form? c = some (.typeField name type) ∧ ResolvesBy env A sub type) (s : State) :
    Quiet (Supplies env s ∧ A) s (do
      if fields.isEmpty then
        report (env.tree.span id) .emptyObjectType
        return 0
      match ← fieldProps env.tree sub fields [] with
      | some props => internObject props
      | none => return 0) fun s' τ => Resolves env s s' id τ := by
  refine .ite (fun _ => .reported_pure) fun _ => ?_
  refine (quiet_fieldProps fields hfields [] s).bind (fun hs => hs) fun s₁ r => ?_
  cases r with
  | none => exact .pure (by rintro ⟨-, τs, -, ⟨⟩⟩)
  | some props =>
    refine quiet_internObject.imp ?_ ?_
    · rintro ⟨hs, τs, heach, hsome⟩
      obtain rfl := Option.some.inj hsome
      refine ⟨heach.interns.stocked, fun p hp => ?_⟩
      obtain ⟨hname, hτ⟩ := List.of_mem_zip hp
      obtain ⟨c, -, hc⟩ := List.mem_map.1 hname
      exact ⟨hc ▸ hscene.named c, heach.has _ hτ⟩
    · rintro s₂ τ ⟨hs, τs, heach, hsome⟩ ⟨hinterns, hnumbers, hlookup⟩
      obtain rfl := Option.some.inj hsome
      have hdenotes := heach.denotes.grow hinterns.typing fun _ _ => trivial
      exact ⟨heach.interns.trans hinterns, ⟨_, hlookup⟩, .object hf hdenotes hnumbers⟩

/-- A function type stands for the function of what its parameters and its result stand for. -/
theorem quiet_typeFunc {id result : Nat} {params : List Nat}
    (hf : env.tree.form? id = some (.typeFunc params result)) (hparams : ∀ p ∈ params, ∃ name type,
      env.tree.form? p = some (.param name type) ∧ ∀ w ∈ type, ResolvesBy env A sub w)
    (hresult : ResolvesBy env A sub result) (s : State) :
    Quiet (Supplies env s ∧ A) s (do
      match ← paramTypesOfType env.tree sub params with
      | none => return 0
      | some params =>
        let result ← sub result
        if result = 0 then return 0 else internFunc params result) fun s' τ => Resolves env s s' id τ := by
  refine (quiet_paramTypesOfType params hparams s).bind (fun hs => hs) fun s₁ r => ?_
  cases r with
  | none => exact .pure (by rintro ⟨-, τs, -, ⟨⟩⟩)
  | some τs =>
    refine (hresult s₁).bind ?_ fun s₂ ρ => ?_
    · rintro ⟨⟨hs, hA⟩, τs', heach, -⟩
      exact ⟨hs.interns heach.interns, hA⟩
    refine .known (fun hs => hs.2.has.ne_zero) fun _ => ?_
    refine quiet_internFunc.imp ?_ ?_
    · rintro ⟨⟨hs, τs', heach, hsome⟩, hρ⟩
      obtain rfl := Option.some.inj hsome
      exact ⟨hρ.interns.stocked, fun p hp => (heach.has p hp).extends hρ.interns.types, hρ.has⟩
    · rintro s₃ τ ⟨⟨hs, τs', heach, hsome⟩, hρ⟩ ⟨hinterns, hnumbers, hlookup⟩
      obtain rfl := Option.some.inj hsome
      have hdenotes := (heach.denotes.grow hρ.interns.typing fun _ _ => trivial).grow hinterns.typing fun _ _ =>
        trivial
      have hresult := hρ.denotes.grow hinterns.typing fun _ _ => trivial
      exact ⟨(heach.interns.trans hρ.interns).trans hinterns, ⟨_, hlookup⟩, .func hf hdenotes hresult hnumbers⟩

/-- If nothing is reported, a type expression is resolved to the type that it stands for. The induction is on the
number of the node, which is above those of its parts. -/
theorem quiet_resolveType (hscene : Scene env) (id : Nat) (htype : env.tree.isType id = true)
    (hfield : ∀ name type, env.tree.form? id ≠ some (.typeField name type)) :
    ResolvesBy env (id ∈ env.tree.reached) (resolveType env) id := by
  induction id using Nat.strongRecOn with
  | _ id ih =>
    intro s
    obtain ⟨f, hf, hftype⟩ := Tree.exists_form_of_isType htype
    let sub := fun c => if _h : c < id then resolveType env c else pure 0
    -- a type that is written in a part is resolved before
    have hsub {x c : Nat} {g : Form} (hx : env.tree.form? x = some g)
      (hxr : id ∈ env.tree.reached → x ∈ env.tree.reached)
        (hle : x ≤ id) (hc : (.type, c) ∈ g.parts) : ResolvesBy env (id ∈ env.tree.reached) sub c := by
      obtain ⟨hlt, hctype⟩ := hscene.linked.isType_part hx hc
      intro s
      have hresolves := ih c (by omega) hctype (hscene.linked.type_part hx hc) s
      simp only [sub, dif_pos (show c < id by omega)]
      exact hresolves.imp (And.imp_right fun hid => hscene.linked.reached_part (hxr hid)
        (mem_children_of_parts hx hc))
        fun _ _ _ h => h
    have hbelow {place : Place} {c : Nat} (hc : (place, c) ∈ f.parts) :
        (id ∈ env.tree.reached → c ∈ env.tree.reached) ∧ c ≤ id :=
      ⟨fun hid => hscene.linked.reached_part hid (mem_children_of_parts hf hc),
        Nat.le_of_lt (hscene.linked.fits hf _ hc).2.1⟩
    rw [resolveType]
    cases f with
    | typeName name =>
      simp only [hf]
      exact quiet_typeName hscene hf s
    | typeObject fields =>
      simp only [hf]
      refine quiet_typeObject hscene hf (fun c hc => ?_) s
      have hpart : (.field, c) ∈ (Form.typeObject fields).parts := List.mem_map_of_mem hc
      obtain ⟨-, name, type, hform⟩ := hscene.linked.field_part hf hpart
      exact ⟨name, type, hform, hsub hform (hbelow hpart).1 (hbelow hpart).2 (mem_parts_of_type? rfl)⟩
    | typeFunc params result =>
      simp only [hf]
      have hresult := hsub hf (fun hid => hid) (Nat.le_refl _) (mem_parts_of_type? rfl)
      refine quiet_typeFunc hf (fun p hp => ?_) hresult s
      have hpart : (.param, p) ∈ (Form.typeFunc params result).parts := mem_parts_of_params hp
      obtain ⟨name, type, hform⟩ := hscene.linked.param_part hf hpart
      exact ⟨name, type, hform, fun w hw => hsub hform (hbelow hpart).1 (hbelow hpart).2 (mem_parts_of_type? hw)⟩
    | typeField name type => exact absurd hf (hfield name type)
    | _ => cases hftype

/-! ### Aliases -/

/-- While aliases are declared and get their targets, nothing but aliases has a type. -/
structure Declaring (env : Env) (s : State) : Prop where
  stocked : s.types.Stocked
  entries : ∀ d τ, s.aliases.lookup d = some τ → s.typing.HasType d τ
  recorded : ∀ v τ, s.typing.HasType v τ → symbolKind env.tree v = .type ∧ s.types.Has τ
  synonyms : ∀ id name target, s.types.lookup? id = some (.synonym name target) →
    ∃ d ∈ aliasDecls env.tree, s.aliases.lookup d = some id
  blank : s.signatures = [] ∧ s.busy = [] ∧ s.done = [] ∧ s.frames = []

/-- All aliases are declared. -/
def Listed (env : Env) (s : State) : Prop := ∀ d ∈ aliasDecls env.tree, ∃ τ, s.aliases.lookup d = some τ

theorem Declaring.supplies (h : Declaring env s) (hall : Listed env s) : Supplies env s where
  stocked := h.stocked
  aliases d hd := by
    obtain ⟨τ, hlookup⟩ := hall d hd
    have hτ := h.entries d τ hlookup
    exact ⟨τ, hlookup, hτ, (h.recorded d τ hτ).2⟩

theorem Declaring.interns (h : Declaring env s) (hi : Interns s s') : Declaring env s' where
  stocked := hi.stocked
  entries d τ hd := hi.hasType.2 (h.entries d τ (hi.aliases ▸ hd))
  recorded v τ hτ := by
    obtain ⟨hkind, hhas⟩ := h.recorded v τ (hi.hasType.1 hτ)
    exact ⟨hkind, hhas.extends hi.types⟩
  synonyms id name target hid := by
    rw [hi.aliases]
    exact h.synonyms id name target (hi.synonyms id name target hid)
  blank := by
    rw [hi.signatures, hi.busy, hi.done, hi.frames]
    exact h.blank

theorem declaring_start (env : Env) : Declaring env {} where
  stocked := Interner.stocked_primitives
  entries := nofun
  recorded v τ hτ := by simp [Typing.HasType, State.typing] at hτ
  synonyms id name target hid := by
    have hplain : ∀ p ∈ primitives, Interner.nameOf? p.2 = none := by decide
    obtain ⟨p, hp, heq⟩ : ∃ p ∈ primitives, p.2 = .synonym name target := by
      simpa using Array.mem_def.1 (Interner.mem_of_lookup? hid)
    exact nomatch heq ▸ hplain p hp
  blank := ⟨rfl, rfl, rfl, rfl⟩

/-- The declaration of one more alias. -/
theorem Declaring.declare (h : Declaring env s) {d : Nat} (hd : d ∈ aliasDecls env.tree)
    (hnew : s.aliases.lookup d = none) :
    Declaring env { s with types := (s.types.newAlias (env.tree.name d)).2,
                           aliases := (d, (s.types.newAlias (env.tree.name d)).1) :: s.aliases,
                           info := s.info.insert d (s.types.newAlias (env.tree.name d)).1 } := by
  have hextends : s.types.Extends (s.types.newAlias (env.tree.name d)).2 := .push _ _
  have hhas : (s.types.newAlias (env.tree.name d)).2.Has (s.types.newAlias (env.tree.name d)).1 :=
    ⟨_, Interner.lookup?_newAlias s.types _⟩
  constructor
  case stocked => exact h.stocked.newAlias _
  case entries =>
    intro e τ he
    change (s.info.insert d _)[e]? = some τ
    rw [Std.TreeMap.getElem?_insert]
    by_cases heq : e = d
    · subst heq
      simpa using he
    · have hold : s.aliases.lookup e = some τ := by simpa [List.lookup_cons, beq_false_of_ne heq] using he
      rw [if_neg (by simpa [Nat.compare_eq_eq] using Ne.symm heq)]
      exact h.entries e τ hold
  case recorded =>
    intro v τ hτ
    change (s.info.insert d _)[v]? = some τ at hτ
    rw [Std.TreeMap.getElem?_insert] at hτ
    split at hτ
    · rename_i heq
      obtain rfl := Nat.compare_eq_eq.1 heq
      obtain rfl := Option.some.inj hτ
      exact ⟨by simpa using (List.mem_filter.1 hd).2, hhas⟩
    · obtain ⟨hkind, hold⟩ := h.recorded v τ hτ
      exact ⟨hkind, hold.extends hextends⟩
  case synonyms =>
    intro id name target hid
    by_cases hlast : id = (s.types.newAlias (env.tree.name d)).1
    · exact ⟨d, hd, by simp [hlast]⟩
    · have hold : s.types.lookup? id = some (.synonym name target) := by
        obtain ⟨hpos, hle⟩ := Interner.has_iff.1 ⟨_, hid⟩
        have hlt : s.types.Has id := by
          have hsize : id ≠ s.types.types.size + 1 := hlast
          simp [Interner.newAlias] at hle
          exact Interner.has_iff.2 ⟨hpos, by omega⟩
        obtain ⟨t, ht⟩ := hlt
        exact ht.trans ((hextends.lookup? ht).symm.trans hid)
      obtain ⟨e, he, hlookup⟩ := h.synonyms id name target hold
      have hne : e ≠ d := by
        rintro rfl
        cases hnew.symm.trans hlookup
      exact ⟨e, he, by simpa [List.lookup_cons, beq_false_of_ne hne] using hlookup⟩
  case blank => exact h.blank

/-- An alias gets its target. -/
theorem Declaring.setAlias (h : Declaring env s) (id : Nat) {target : Nat} (ht : s.types.Has target) :
    Declaring env { s with types := s.types.setAlias id target } := by
  have hsize : (s.types.setAlias id target).types.size = s.types.types.size := by
    unfold Interner.setAlias
    split <;> simp
  have hhas {τ : Nat} (hτ : s.types.Has τ) : (s.types.setAlias id target).Has τ :=
    hτ.of_size_le (Nat.le_of_eq hsize.symm)
  constructor
  case stocked => exact h.stocked.setAlias id (.inr ht)
  case entries => exact h.entries
  case recorded => exact fun v τ hτ => ⟨(h.recorded v τ hτ).1, hhas (h.recorded v τ hτ).2⟩
  case synonyms =>
    intro id' name new hid
    obtain ⟨hpos, hle⟩ := Interner.has_iff.1 ⟨_, hid⟩
    obtain ⟨t, ht'⟩ : s.types.Has id' := Interner.has_iff.2 ⟨hpos, hsize ▸ hle⟩
    rcases Interner.kept_setAlias s.types id target id' t ht' with hsame | ⟨name', old, new', rfl, -⟩
    · obtain rfl := Option.some.inj (hsame.symm.trans hid)
      exact h.synonyms id' name new ht'
    · exact h.synonyms id' name' old ht'
  case blank => exact h.blank

/-- What an alias declaration consists of. -/
theorem exists_form_of_mem_aliasDecls (hscene : Scene env) {d : Nat} (hd : d ∈ aliasDecls env.tree) : ∃ name type,
    env.tree.form? d = some (.typeAlias name type) ∧ ResolvesBy env True (resolveType env) type := by
  obtain ⟨hreached, hkind⟩ := List.mem_filter.1 hd
  have hkind : symbolKind env.tree d = .type := by simpa using hkind
  unfold symbolKind at hkind
  cases hf : env.tree.form? d with
  | none => simp [hf] at hkind
  | some f =>
    rw [hf] at hkind
    cases f with
    | typeAlias name type =>
      have hpart : (.type, type) ∈ (Form.typeAlias name type).parts := List.mem_singleton.2 rfl
      obtain ⟨-, htype⟩ := hscene.linked.isType_part hf hpart
      refine ⟨name, type, rfl, fun s => ?_⟩
      exact (quiet_resolveType hscene type htype (hscene.linked.type_part hf hpart) s).imp
        (And.imp_right fun _ => hscene.linked.reached_part hreached (mem_children_of_parts hf hpart))
        fun _ _ _ h => h
    | varDecl name isConst => cases isConst <;> exact nomatch hkind
    | _ => exact nomatch hkind

/-- If nothing is reported, no alias leads to itself, and the state is orderly. Only aliases have types. -/
theorem quiet_declareAliases (hscene : Scene env) : Quiet True {} (declareAliases env) fun s _ =>
    Orderly env s ∧ s.done = [] ∧ s.frames = [] ∧ ∀ v τ, s.typing.HasType v τ → Early env.tree v := by
  -- first every alias gets a number
  let I₁ (rest : List Nat) (s : State) : Prop := Declaring env s ∧ rest.Nodup ∧
    (∀ d ∈ rest, d ∈ aliasDecls env.tree) ∧ ∀ d ∈ aliasDecls env.tree, d ∈ rest ↔ s.aliases.lookup d = none
  have hfirst := Quiet.forM (I := I₁) (f := declareAlias env) (aliasDecls env.tree) (fun d _ rest s => by
      refine ⟨Nat.le_of_eq ?_, ?_⟩
      · rfl
      rintro ⟨hs, hnodup, hsub, hrest⟩ -
      have hd := hsub d List.mem_cons_self
      have hnew := (hrest d hd).1 List.mem_cons_self
      rw [List.nodup_cons] at hnodup
      refine ⟨hs.declare hd hnew, hnodup.2, fun e he => hsub e (List.mem_cons_of_mem _ he), fun e he => ?_⟩
      change e ∈ rest ↔ List.lookup e ((d, _) :: s.aliases) = none
      by_cases heq : e = d
      · subst heq
        simp [hnodup.1]
      · rw [List.lookup_cons, beq_false_of_ne heq, ← hrest e he]
        simp [heq]) {}
  -- then its target
  let I₂ (_ : List Nat) (s : State) : Prop := Declaring env s ∧ Listed env s
  have hsecond := Quiet.forM (I := I₂) (f := fun d => do
    let target ← resolveType? env ((env.tree.form? d).bind (·.type?))
    modify fun s => { s with types := s.types.setAlias ((s.aliases.lookup d).getD 0) target }) (aliasDecls env.tree)
    (fun d hd rest s => by
      obtain ⟨name, type, hf, hresolves⟩ := exists_form_of_mem_aliasDecls hscene hd
      simp only [hf, Option.bind_some, Form.type?, resolveType?]
      refine (hresolves s).bind (fun hs => ⟨hs.1.supplies hs.2, trivial⟩) fun s₁ target => .modify rfl ?_
      rintro ⟨⟨hs, hall⟩, htarget⟩
      refine ⟨(hs.interns htarget.interns).setAlias _ htarget.has, fun e he => ?_⟩
      change ∃ τ, s₁.aliases.lookup e = some τ
      rw [htarget.interns.aliases]
      exact hall e he)
  -- and none of them leads to itself
  let I₃ (rest : List Nat) (s : State) : Prop := Declaring env s ∧ Listed env s ∧
    ∀ d ∈ aliasDecls env.tree, d ∈ rest ∨ s.types.unalias ((s.aliases.lookup d).getD 0) ≠ 0
  have hthird := Quiet.forM (I := I₃) (f := fun d => do
    let s ← get
    if s.types.unalias ((s.aliases.lookup d).getD 0) = 0 then
      report (env.tree.span d) (.circularAlias (env.tree.name d))) (aliasDecls env.tree) (fun d _ rest s => by
      refine .read (.ite (fun _ => .report _ _) fun hne => .pure ?_)
      rintro ⟨hs, hall, hrest⟩
      refine ⟨hs, hall, fun e he => ?_⟩
      rcases hrest e he with hmem | hends
      · rcases List.mem_cons.1 hmem with rfl | hmem
        · exact .inr hne
        · exact .inl hmem
      · exact .inr hends)
  refine hfirst.bind (fun _ => ⟨declaring_start env, hscene.nodupAliases, fun _ => id, fun d hd => by simp [hd]⟩)
    fun s₁ _ => ?_
  refine (hsecond s₁).bind ?_ fun s₂ _ => ?_
  · rintro ⟨-, hs, -, -, hall⟩
    refine ⟨hs, fun d hd => Option.ne_none_iff_exists'.1 fun hnone => ?_⟩
    exact absurd ((hall d hd).2 hnone) List.not_mem_nil
  refine (hthird s₂).imp (fun hs => ⟨hs.2.1, hs.2.2, fun d hd => .inl hd⟩) ?_
  rintro s₃ - - ⟨hs, hall, hends⟩
  obtain ⟨hsignatures, hbusy, hdone, hframes⟩ := hs.blank
  have hsound : s₃.types.Sound := hs.stocked.sound fun id name target hid => by
    obtain ⟨d, hd, hlookup⟩ := hs.synonyms id name target hid
    simpa [hlookup] using hends d hd
  -- functions and their parameters are no aliases
  have huntyped {v : Nat} (hv : symbolKind env.tree v ≠ .type) : s₃.info[v]? = none :=
    Option.eq_none_iff_forall_ne_some.2 fun τ hτ => hv (hs.recorded v τ hτ).1
  refine ⟨⟨hs.stocked, hsound, fun v τ hτ => (hs.recorded v τ hτ).2, fun d hd => ?_, ?_, fun d hd _ => ?_, ?_⟩,
    hdone,
    hframes, fun v τ hτ => .inl (hs.recorded v τ hτ).1⟩
  · obtain ⟨τ, hlookup⟩ := hall d hd
    exact ⟨τ, hlookup, hs.entries d τ hlookup⟩
  · simp [hsignatures]
  · refine ⟨huntyped (by rcases hd with hd | hd <;> simp [hd]), fun _ p hp => huntyped ?_⟩
    obtain ⟨name, type, hform⟩ := hscene.param hp
    simp [symbolKind, hform, SymbolKind.ofForm]
  · simp [hbusy]

end TypedScript.Check
