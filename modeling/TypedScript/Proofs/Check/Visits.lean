import TypedScript.Proofs.Check.Written

/-!
# Recording types

What becomes of the checker's state when nodes are visited and types are recorded: the nodes that were visited
obey their rules, no node loses its type, and what holds of the state at all times goes on to hold.

* `Passes`: nodes were visited within the functions that were open.
* `Enters`: they were, and perhaps the body of one more function was entered and left.
* `Fills`: types were made, and nodes that had none got one.
* `quiet_paramTypes`: the parameters of a function get their types.
* `Orderly.sign`: a declared function gets its type.
-/

namespace TypedScript.Check

open TypedScript.Ast TypedScript.Binding TypedScript.Ty Typing

variable {env : Env} {s s' s'' : State} {P : Prop} {id d v τ : Nat} {f : Form} {ns ns' : List Nat}

/-! ### Kinds of nodes -/

theorem symbolKind_of_form (hf : env.tree.form? id = some f) : symbolKind env.tree id = SymbolKind.ofForm f := by
  simp [symbolKind, hf]

theorem DeclaresFunction.kind_ne (h : DeclaresFunction env.tree d) {k : SymbolKind} (hk : symbolKind env.tree d = k)
    (hne : k ≠ .function ∧ k ≠ .foreign) : False := by
  rcases h with h | h
  · exact hne.1 (hk.symm.trans h)
  · exact hne.2 (hk.symm.trans h)

/-- The node is neither a declared function nor a parameter of one with a written result, nor an alias. -/
structure Late (env : Env) (v : Nat) : Prop where
  declares : ¬ DeclaresFunction env.tree v
  early : ¬ Early env.tree v

theorem Late.of_kind (hscene : Scene env) {k : SymbolKind} (hk : symbolKind env.tree v = k)
    (hne : k = .invalid ∨ k = .letBinding ∨ k = .constBinding) : Late env v := by
  have hnot : ¬ DeclaresFunction env.tree v := fun h => h.kind_ne hk (by rcases hne with rfl | rfl | rfl <;> simp)
  refine ⟨hnot, ?_⟩
  rintro (htype | ⟨d, hd, -, rfl | hparam⟩)
  · rw [hk] at htype
    rcases hne with rfl | rfl | rfl <;> cases htype
  · exact hnot hd
  · obtain ⟨name, type, hform⟩ := hscene.param hparam
    rw [symbolKind_of_form hform] at hk
    rcases hne with rfl | rfl | rfl <;> cases hk

/-- The parameters of functions without a name or a written result get their types when the functions are visited.
-/
theorem Late.param (hscene : Scene env) (hv : v ∈ paramsOf env.tree id)
    (hid : ¬ DeclaresFunction env.tree id ∨ IsInferred env.tree id) : Late env v := by
  obtain ⟨name, type, hform⟩ := hscene.param hv
  have hkind : symbolKind env.tree v = .param := symbolKind_of_form hform
  have hnot : ¬ DeclaresFunction env.tree v := fun h => h.kind_ne hkind (by simp)
  refine ⟨hnot, ?_⟩
  rintro (htype | ⟨d, hd, hwritten, rfl | hparam⟩)
  · exact nomatch htype.symm.trans hkind
  · exact hnot hd
  · obtain rfl := hscene.parents hv hparam
    exact hid.elim (fun h => h hd) hwritten

theorem Form.ofForm_of_isExpression (h : f.isExpression = true) : SymbolKind.ofForm f = .invalid := by
  cases f <;> first | rfl | exact nomatch h

theorem Form.isType_of_isExpression (h : f.isExpression = true) : f.isType = false := by
  cases f <;> first | rfl | exact nomatch h

theorem Late.of_isExpression (hscene : Scene env) (hf : env.tree.form? v = some f) (h : f.isExpression = true) :
    Late env v :=
  .of_kind hscene ((symbolKind_of_form hf).trans (Form.ofForm_of_isExpression h)) (.inl rfl)

/-! ### Recording a type -/

/-- The state in which a type is recorded for a node. -/
def State.recorded (s : State) (id τ : Nat) : State := { s with info := s.info.insert id τ }

theorem hasType_recorded {σ : Nat} : (s.recorded id τ).typing.HasType v σ ↔ v = id ∧ σ = τ ∨ v ≠ id ∧
    s.typing.HasType v σ := by
  change (s.info.insert id τ)[v]? = some σ ↔ _ ∨ _ ∧ s.info[v]? = some σ
  rw [Std.TreeMap.getElem?_insert]
  by_cases heq : id = v
  · subst heq
    simp [eq_comm]
  · rw [if_neg (by simpa [Nat.compare_eq_eq] using heq)]
    simp [Ne.symm heq]

/-- The nodes that keep their types when a type is recorded for a node: all, if that node had none. -/
def KeepsType (s : State) (id v : Nat) : Prop := s.info[id]? = none ∨ v ≠ id

theorem growsOn_recorded (s : State) (id τ : Nat) : GrowsOn (KeepsType s id) s.typing (s.recorded id τ).typing := by
  refine ⟨.refl _, fun v σ hkeeps hσ => hasType_recorded.2 (.inr ⟨?_, hσ⟩)⟩
  rintro rfl
  rcases hkeeps with hnone | hne
  · cases hnone.symm.trans hσ
  · exact hne rfl

theorem grows_recorded (hnone : s.info[id]? = none) (τ : Nat) : Grows s.typing (s.recorded id τ).typing :=
  ⟨.refl _, fun v σ _ hσ => (growsOn_recorded s id τ).info v σ (.inl hnone) hσ⟩

/-- A type can be recorded for a node that has none, and again for one that declares nothing. -/
theorem Orderly.recorded (h : Orderly env s) (hscene : Scene env) (hhas : s.types.Has τ) (hlate : Late env id)
    (hkeeps : s.info[id]? = none ∨ symbolKind env.tree id = .invalid) : Orderly env (s.recorded id τ) := by
  have hkeep {v : Nat} (hv : symbolKind env.tree v ≠ .invalid) : KeepsType s id v :=
    hkeeps.imp_right fun hkind heq => hv (heq ▸ hkind)
  have hfunction {d : Nat} (hd : DeclaresFunction env.tree d) : symbolKind env.tree d ≠ .invalid := by
    rcases hd with hd | hd <;> simp [hd]
  have hparam {d p : Nat} (hp : p ∈ paramsOf env.tree d) : symbolKind env.tree p ≠ .invalid := by
    obtain ⟨name, type, hform⟩ := hscene.param hp
    simp [symbolKind, hform, SymbolKind.ofForm]
  constructor
  case stocked => exact h.stocked
  case sound => exact h.sound
  case has =>
    intro v σ hσ
    rcases hasType_recorded.1 hσ with ⟨-, rfl⟩ | ⟨-, hσ⟩
    · exact hhas
    · exact h.has v σ hσ
  case aliases =>
    intro d hd
    obtain ⟨σ, hlookup, hσ⟩ := h.aliases d hd
    have hkind : symbolKind env.tree d = .type := by simpa using (List.mem_filter.1 hd).2
    exact ⟨σ, hlookup, (growsOn_recorded s id τ).info d σ (hkeep (by simp [hkind])) hσ⟩
  case signed =>
    intro d σ hd
    obtain ⟨hdecl, hσ, hsigned⟩ := h.signed d σ hd
    have hd := hkeep (hfunction hdecl)
    refine ⟨hdecl, (growsOn_recorded s id τ).info d σ hd hσ, hsigned.grow (growsOn_recorded s id τ)
      (fun e he => ?_) hd ?_⟩
    · exact hkeep (by simp [he])
    · exact fun p hp => hkeep (hparam hp)
  case unsigned =>
    intro d hd hnone
    obtain ⟨hself, hparams⟩ := h.unsigned d hd hnone
    have hother {v : Nat} (hne : v ≠ id) : (s.info.insert id τ)[v]? = s.info[v]? := by
      rw [Std.TreeMap.getElem?_insert, if_neg (by simpa [Nat.compare_eq_eq] using Ne.symm hne)]
    refine ⟨(hother ?_).trans hself, fun hwritten p hp => (hother ?_).trans (hparams hwritten p hp)⟩
    · rintro rfl
      exact hlate.declares hd
    · rintro rfl
      exact hlate.early (.inr ⟨d, hd, hwritten, .inr hp⟩)
  case busy => exact h.busy

/-! ### What visiting leads to -/

/-- No type is wanted, or one that there is. -/
def Wanted (s : State) (want : Nat) : Prop := want = 0 ∨ s.types.Has want

theorem Wanted.none (s : State) : Wanted s 0 := .inl rfl

theorem Wanted.grow {want : Nat} (h : Wanted s want) (hΓ : Grows s.typing s'.typing) : Wanted s' want :=
  h.imp_right fun hhas => hhas.extends hΓ.types

/-- The nodes were visited within the functions that were open. -/
structure Passes (env : Env) (s s' : State) (ns : List Nat) : Prop where
  visits : Visits env s s' ns
  frames : s'.frames = s.frames

theorem Passes.nil (h : Orderly env s) : Passes env s s [] := ⟨.nil h, rfl⟩

theorem Passes.append (h : Passes env s s' ns) (hscene : Scene env) (h' : Passes env s' s'' ns') :
    Passes env s s'' (ns ++ ns') := ⟨h.visits.append hscene h'.visits, h'.frames.trans h.frames⟩

theorem Passes.typing (h : Passes env s s' ns) : Grows s.typing s'.typing := h.visits.typing

theorem Passes.has (h : Passes env s s' ns) (hτ : s'.typing.HasType v τ) : s'.types.Has τ :=
  h.visits.orderly.has v τ hτ

theorem Passes.has_bool (h : Passes env s s' ns) : s'.types.Has boolId :=
  h.visits.orderly.stocked.has_primitive "boolean" rfl

/-- Types were made after nodes were visited. -/
theorem Passes.interns (h : Passes env s s' ns) (hlinked : env.tree.Linked) (hi : Interns s' s'') :
    Passes env s s'' ns where
  frames := hi.frames.trans h.frames
  visits := {
    typing := h.typing.trans hi.typing
    busy := hi.busy.trans h.visits.busy
    fresh := fun v τ hτ => h.visits.fresh v τ (hi.hasType.1 hτ)
    done := fun v hv => h.visits.done v (hi.done ▸ hv)
    kept := fun _ hv => hi.done ▸ h.visits.kept hv
    orderly := h.visits.orderly.interns hi
    judged := fun v hv => (h.visits.judged v hv).grow hlinked hi.typing }

/-- The nodes were visited, and perhaps the body of the function was entered and left. -/
structure Enters (env : Env) (s s' : State) (id : Nat) (ns : List Nat) : Prop where
  spreads : Spreads env s s' (id :: ns)
  fresh : ∀ v τ, s'.typing.HasType v τ → (∃ σ, s.typing.HasType v σ) ∨ v ∈ ns ∨ Early env.tree v
  orderly : Orderly env s'
  judged : ∀ v ∈ ns, Judged env s'.typing v
  frames : s'.frames = s.frames

theorem Passes.enters (h : Passes env s s' ns) (id : Nat) : Enters env s s' id ns where
  spreads := h.visits.toSpreads.mono (List.subset_cons_self _ _)
  fresh := h.visits.fresh
  orderly := h.visits.orderly
  judged := h.visits.judged
  frames := h.frames

namespace Enters

theorem typing (h : Enters env s s' id ns) : Grows s.typing s'.typing := h.spreads.typing

theorem has (h : Enters env s s' id ns) (hτ : s'.typing.HasType v τ) : s'.types.Has τ := h.orderly.has v τ hτ

/-- Nodes were visited before the body was entered. -/
theorem after (h : Enters env s' s'' id ns') (hscene : Scene env) (hs : Passes env s s' ns) : Enters env s s'' id
    (ns ++ ns') where
  spreads := (hs.visits.toSpreads.trans h.spreads).mono fun v hv => by simpa [or_left_comm] using hv
  fresh v τ hτ := by
    rcases h.fresh v τ hτ with ⟨σ, hσ⟩ | hmem | hearly
    · exact (hs.visits.fresh v σ hσ).imp_right (Or.imp_left (List.mem_append_left _))
    · exact .inr (.inl (List.mem_append_right _ hmem))
    · exact .inr (.inr hearly)
  orderly := h.orderly
  judged v hv := by
    rcases List.mem_append.1 hv with hv | hv
    · exact (hs.visits.judged v hv).grow hscene.linked h.typing
    · exact h.judged v hv
  frames := h.frames.trans hs.frames

/-- Types were made after the body was left. -/
theorem interns (h : Enters env s s' id ns) (hlinked : env.tree.Linked) (hi : Interns s' s'') :
    Enters env s s'' id ns where
  spreads := (h.spreads.trans hi.spreads).mono fun v hv => by simpa using hv
  fresh v τ hτ := h.fresh v τ (hi.hasType.1 hτ)
  orderly := h.orderly.interns hi
  judged v hv := (h.judged v hv).grow hlinked hi.typing
  frames := hi.frames.trans h.frames

end Enters

/-- The nodes below an expression were visited and gave it its type, which is not recorded yet. -/
structure Found (env : Env) (s s' : State) (id τ : Nat) (ns : List Nat) : Prop extends Enters env s s' id ns where
  hasType : s'.types.Has τ
  settles : ∀ Γ, Grows s'.typing Γ → Γ.HasType id τ → Judged env Γ id

theorem Passes.found (h : Passes env s s' ns) (hhas : s'.types.Has τ)
    (hsettles : ∀ Γ, Grows s'.typing Γ → Γ.HasType id τ → Judged env Γ id) : Found env s s' id τ ns :=
  ⟨h.enters id, hhas, hsettles⟩

/-- What is recorded after the nodes below it were visited was visited itself. -/
theorem Found.recorded (h : Found env s s' id τ ns) (hscene : Scene env) (hprepared : Prepared env s (id :: ns))
    (hlate : Late env id) : Passes env s (s'.recorded id τ) (id :: ns) ∧
    (s'.recorded id τ).typing.HasType id τ := by
  have hnotin : id ∉ ns := (List.nodup_cons.1 (hscene.nodup.sublist hprepared.placed)).1
  have hnone : s'.info[id]? = none := by
    refine Option.eq_none_iff_forall_ne_some.2 fun σ hσ => ?_
    rcases h.fresh id σ hσ with ⟨σ', hσ'⟩ | hmem | hearly
    · exact hlate.early ((hprepared.fresh id List.mem_cons_self).2 σ' hσ')
    · exact hnotin hmem
    · exact hlate.early hearly
  have hgrows := grows_recorded hnone τ
  have hτ : (s'.recorded id τ).typing.HasType id τ := hasType_recorded.2 (.inl ⟨rfl, rfl⟩)
  refine ⟨⟨⟨⟨h.typing.trans hgrows, h.spreads.busy, fun v σ hσ => ?_, h.spreads.done, h.spreads.kept⟩, ?_,
    fun v hv => ?_⟩, h.frames⟩, hτ⟩
  · rcases hasType_recorded.1 hσ with ⟨rfl, -⟩ | ⟨-, hσ⟩
    · exact .inr (.inl List.mem_cons_self)
    · exact (h.fresh v σ hσ).imp_right (Or.imp_left (List.mem_cons_of_mem _))
  · exact h.orderly.recorded hscene h.hasType hlate (.inl hnone)
  · rcases List.mem_cons.1 hv with rfl | hv
    · exact h.settles _ hgrows hτ
    · exact (h.judged v hv).grow hscene.linked hgrows

theorem quiet_record (id τ : Nat) : Quiet P s (record id τ) fun s' σ => σ = τ ∧ (τ ≠ 0 → s' = s.recorded id τ) := by
  unfold record
  refine .ite (fun _ => ?_) fun hzero => .pure fun _ => ⟨rfl, fun hne => absurd hne hzero⟩
  exact ⟨Nat.le_refl _, fun _ _ => ⟨rfl, fun _ => rfl⟩⟩

/-! ### Types for several nodes -/

/-- Types were made, and some nodes that had none got one. -/
structure Fills (s s' : State) (ps : List Nat) : Prop where
  state : s' = { s with types := s'.types, info := s'.info }
  typing : Grows s.typing s'.typing
  fresh : ∀ v τ, s'.typing.HasType v τ → s.typing.HasType v τ ∨ v ∈ ps ∧ s'.types.Has τ
  stocked : s'.types.Stocked
  sound : s.types.Sound → s'.types.Sound

theorem Interns.fills (h : Interns s s') : Fills s s' [] where
  state := by
    rw [h.state]
  typing := h.typing
  fresh v τ hτ := .inl (h.hasType.1 hτ)
  stocked := h.stocked
  sound := h.sound

namespace Fills

variable {ps ps' : List Nat}

theorem trans (h : Fills s s' ps) (h' : Fills s' s'' ps') : Fills s s'' (ps ++ ps') where
  state := by
    rw [h'.state, h.state]
  typing := h.typing.trans h'.typing
  fresh v τ hτ := by
    rcases h'.fresh v τ hτ with hτ | ⟨hmem, hhas⟩
    · rcases h.fresh v τ hτ with hτ | ⟨hmem, hhas⟩
      · exact .inl hτ
      · exact .inr ⟨List.mem_append_left _ hmem, hhas.extends h'.typing.types⟩
    · exact .inr ⟨List.mem_append_right _ hmem, hhas⟩
  stocked := h'.stocked
  sound hs := h'.sound (h.sound hs)

theorem recorded (hs : s.types.Stocked) (hnone : s.info[id]? = none) (hhas : s.types.Has τ) :
    Fills s (s.recorded id τ) [id] where
  state := rfl
  typing := grows_recorded hnone τ
  fresh v σ hσ := by
    rcases hasType_recorded.1 hσ with ⟨rfl, rfl⟩ | ⟨-, hσ⟩
    · exact .inr ⟨List.mem_cons_self, hhas⟩
    · exact .inl hσ
  stocked := hs
  sound := fun hs => hs

theorem signatures (h : Fills s s' ps) : s'.signatures = s.signatures := by rw [h.state]

theorem aliases (h : Fills s s' ps) : s'.aliases = s.aliases := by rw [h.state]

theorem busy (h : Fills s s' ps) : s'.busy = s.busy := by rw [h.state]

theorem done (h : Fills s s' ps) : s'.done = s.done := by rw [h.state]

theorem frames (h : Fills s s' ps) : s'.frames = s.frames := by rw [h.state]

theorem none (h : Fills s s' ps) (hv : v ∉ ps) (hnone : s.info[v]? = none) : s'.info[v]? = none := by
  refine Option.eq_none_iff_forall_ne_some.2 fun τ hτ => ?_
  rcases h.fresh v τ hτ with hτ | ⟨hmem, -⟩
  · exact nomatch hnone.symm.trans hτ
  · exact hv hmem

theorem supplies (h : Fills s s' ps) (hs : Supplies env s) : Supplies env s' where
  stocked := h.stocked
  aliases d hd := by
    obtain ⟨τ, hlookup, hτ, hhas⟩ := hs.aliases d hd
    exact ⟨τ, h.aliases ▸ hlookup, h.typing.info d τ trivial hτ, hhas.extends h.typing.types⟩

end Fills

/-- States stay orderly when nodes get types that are no declared functions and no parameters of those with a
written result. -/
theorem Orderly.fills {ps : List Nat} (h : Orderly env s) (hf : Fills s s' ps) (hlate : ∀ p ∈ ps, Late env p) :
    Orderly env s' where
  stocked := hf.stocked
  sound := hf.sound h.sound
  has v τ hτ := by
    rcases hf.fresh v τ hτ with hτ | ⟨-, hhas⟩
    · exact (h.has v τ hτ).extends hf.typing.types
    · exact hhas
  aliases d hd := by
    obtain ⟨τ, hlookup, hτ⟩ := h.aliases d hd
    exact ⟨τ, hf.aliases ▸ hlookup, hf.typing.info d τ trivial hτ⟩
  signed d τ hd := by
    obtain ⟨hdecl, hτ, hsigned⟩ := h.signed d τ (hf.signatures ▸ hd)
    exact ⟨hdecl, hf.typing.info d τ trivial hτ,
      hsigned.grow hf.typing (fun _ _ => trivial) trivial fun _ _ => trivial⟩
  unsigned d hd hnone := by
    obtain ⟨hself, hparams⟩ := h.unsigned d hd (hf.signatures ▸ hnone)
    refine ⟨hf.none (fun hmem => (hlate d hmem).declares hd) hself,
      fun hwritten p hp => hf.none (fun hmem => ?_) (hparams hwritten p hp)⟩
    exact (hlate p hmem).early (.inr ⟨d, hd, hwritten, .inr hp⟩)
  busy d hd := hf.done ▸ h.busy d (hf.busy ▸ hd)

/-- The state in which the type of a declared function is noted. -/
def State.signed (s : State) (d τ : Nat) : State :=
  { s with signatures := (d, τ) :: s.signatures, info := s.info.insert d τ }

theorem hasType_signed {σ : Nat} : (s.signed d τ).typing.HasType v σ ↔ v = d ∧ σ = τ ∨ v ≠ d ∧
    s.typing.HasType v σ :=
  hasType_recorded (s := s)

/-- A declared function gets its type, after its parameters did. -/
theorem Orderly.sign {ps : List Nat} (h : Orderly env s) (hscene : Scene env) (hf : Fills s s' ps)
    (hps : ∀ p ∈ ps, p ∈ paramsOf env.tree d) (hd : DeclaresFunction env.tree d)
    (hnone : s.signatures.lookup d = none) (hhas : s'.types.Has τ)
    (hsigned : ∀ Γ, Grows s'.typing Γ → Γ.HasType d τ → Signed env Γ d) :
    Orderly env (s'.signed d τ) ∧ Grows s'.typing (s'.signed d τ).typing := by
  have hfunction {e : Nat} (he : DeclaresFunction env.tree e) : e ∉ ps := fun hmem => by
    obtain ⟨name, type, hform⟩ := hscene.param (hps e hmem)
    exact he.kind_ne (symbolKind_of_form hform) (by simp [SymbolKind.ofForm])
  have hinfo : s'.info[d]? = none := hf.none (hfunction hd) (h.unsigned d hd hnone).1
  have hgrows : Grows s'.typing (s'.signed d τ).typing := grows_recorded hinfo τ
  have hτ : (s'.signed d τ).typing.HasType d τ := hasType_signed.2 (.inl ⟨rfl, rfl⟩)
  have hall := hf.typing.trans hgrows
  have hlookup {e : Nat} (hne : e ≠ d) : (s'.signed d τ).signatures.lookup e = s.signatures.lookup e := by
    rw [← hf.signatures]
    simp [State.signed, List.lookup_cons, beq_false_of_ne hne]
  have hstays {v : Nat} (hne : v ≠ d) (hv : v ∉ ps) (hnone : s.info[v]? = none) :
    (s'.signed d τ).info[v]? = none := by
    refine Option.eq_none_iff_forall_ne_some.2 fun σ hσ => ?_
    rcases hasType_signed.1 hσ with ⟨heq, -⟩ | ⟨-, hσ⟩
    · exact hne heq
    · cases (hf.none hv hnone).symm.trans hσ
  refine ⟨⟨hf.stocked, hf.sound h.sound, fun v σ hσ => ?_, fun e he => ?_, fun e σ he => ?_,
    fun e he hnone' => ?_, ?_⟩, hgrows⟩
  · -- what has a type
    rcases hasType_signed.1 hσ with ⟨-, rfl⟩ | ⟨-, hσ⟩
    · exact hhas
    · rcases hf.fresh v σ hσ with hσ | ⟨-, hhas'⟩
      · exact (h.has v σ hσ).extends hf.typing.types
      · exact hhas'
  · -- aliases
    obtain ⟨σ, hlookup, hσ⟩ := h.aliases e he
    exact ⟨σ, hf.aliases ▸ hlookup, hall.info e σ trivial hσ⟩
  · -- functions with a type
    by_cases heq : e = d
    · subst heq
      obtain rfl : τ = σ := Option.some.inj (List.lookup_cons_self.symm.trans he)
      exact ⟨hd, hτ, hsigned _ hgrows hτ⟩
    · obtain ⟨hdecl, hσ, hsigned'⟩ := h.signed e σ (hlookup heq ▸ he)
      exact ⟨hdecl, hall.info e σ trivial hσ, hsigned'.grow hall (fun _ _ => trivial) trivial fun _ _ => trivial⟩
  · -- functions without one
    have hne : e ≠ d := by
      rintro rfl
      cases List.lookup_cons_self.symm.trans hnone'
    obtain ⟨hself, hparams⟩ := h.unsigned e he (hlookup hne ▸ hnone')
    refine ⟨hstays hne (hfunction he) hself,
      fun hwritten p hp => hstays ?_ (fun hmem => ?_) (hparams hwritten p hp)⟩
    · rintro rfl
      obtain ⟨name, type, hform⟩ := hscene.param hp
      exact hd.kind_ne (symbolKind_of_form hform) (by simp [SymbolKind.ofForm])
    · exact hne (hscene.parents hp (hps p hmem))
  · exact fun e he => hf.done.symm ▸ h.busy e (hf.busy ▸ he)

/-! ### Parameters -/

/-- The parameters got types, which are those that are written for them. -/
structure Parametrizes (env : Env) (s s' : State) (params σs : List Nat) : Prop where
  fills : Fills s s' params
  typed : List.Forall₂ s'.typing.HasType params σs
  has : ∀ σ ∈ σs, s'.types.Has σ
  written : ∀ p ∈ params, ∃ σ, s'.typing.HasType p σ ∧ ∀ w ∈ (env.tree.form? p).bind (·.type?),
    Denotes env s'.typing w σ

theorem Parametrizes.nil (h : s.types.Stocked) : Parametrizes env s s [] [] :=
  ⟨(Interns.refl h).fills, .nil, nofun, nofun⟩

theorem Parametrizes.cons {p σ : Nat} {ps σs : List Nat} (hp : Fills s s' [p]) (hσ : s'.typing.HasType p σ)
    (hhas : s'.types.Has σ) (hwritten : ∀ w ∈ (env.tree.form? p).bind (·.type?), Denotes env s'.typing w σ)
    (h : Parametrizes env s' s'' ps σs) :
    Parametrizes env s s'' (p :: ps) (σ :: σs) where
  fills := hp.trans h.fills
  typed := .cons (h.fills.typing.info p σ trivial hσ) h.typed
  has := List.forall_mem_cons.2 ⟨hhas.extends h.fills.typing.types, h.has⟩
  written := List.forall_mem_cons.2
    ⟨⟨σ, h.fills.typing.info p σ trivial hσ, fun w hw => (hwritten w hw).grow h.fills.typing fun _ _ => trivial⟩,
    h.written⟩

/-- A type that is written in a node can be resolved. -/
theorem resolvesBy_part (hscene : Scene env) (hf : env.tree.form? id = some f) {w : Nat} (hw : w ∈ f.type?) :
    ResolvesBy env (id ∈ env.tree.reached) (resolveType env) w := by
  have hpart := mem_parts_of_type? hw
  obtain ⟨-, htype⟩ := hscene.linked.isType_part hf hpart
  intro s
  exact (quiet_resolveType hscene w htype (hscene.linked.type_part hf hpart) s).imp
    (And.imp_right fun hid => hscene.linked.reached_part hid (mem_children_of_parts hf hpart)) fun _ _ _ h => h

/-- The context expects types that there are. -/
def Expected (s : State) (expected : Option Ty) : Prop := ∀ σs ρ, expected = some (.func σs ρ) →
    ∀ σ ∈ σs, s.types.Has σ

theorem Expected.none (s : State) : Expected s Option.none := by
  intro σs ρ heq
  cases heq

/-- Aliases keep their types when a type is recorded for a node that is none. -/
theorem Supplies.recorded (h : Supplies env s) (hkind : symbolKind env.tree id ≠ .type) (τ : Nat) :
    Supplies env (s.recorded id τ) where
  stocked := h.stocked
  aliases d hd := by
    obtain ⟨σ, hlookup, hσ, hhas⟩ := h.aliases d hd
    have hd : symbolKind env.tree d = .type := by simpa using (List.mem_filter.1 hd).2
    refine ⟨σ, hlookup, (growsOn_recorded s id τ).info d σ (.inr ?_) hσ, hhas⟩
    rintro rfl
    exact hkind hd

/-- All parameters were given types. If they had none before, these are the ones that are written or expected. -/
abbrev Assigns (env : Env) (s s' : State) (params : List Nat) (r : Option (List Nat)) : Prop :=
  ∃ σs, r = some σs ∧ s'.busy = s.busy ∧
    (params.Nodup → (∀ p ∈ params, s.info[p]? = none) → Parametrizes env s s' params σs)

/-- The parameters of a function that have no types yet get them. -/
theorem Assigns.parametrizes {σs : List Nat} (h : Assigns env s s' f.params (some σs)) (hscene : Scene env)
    (hf : env.tree.form? id = some f) (hnone : ∀ p ∈ f.params, s.info[p]? = none) :
    Parametrizes env s s' f.params σs := by
  obtain ⟨σs', hsome, -, hparametrizes⟩ := h
  obtain rfl := Option.some.inj hsome
  have hnodup := hscene.nodup_params id
  rw [paramsOf, hf] at hnodup
  exact hparametrizes hnodup hnone

/-- If nothing is reported, every parameter gets a type: the one that is written or expected. -/
theorem quiet_paramTypes (hscene : Scene env) (expected : Option Ty) (params : List Nat)
    (hparams : ∀ p ∈ params, ∃ name type, env.tree.form? p = some (.param name type)) (i : Nat) (s : State) :
    Quiet (Supplies env s ∧ (∀ p ∈ params, p ∈ env.tree.reached) ∧ Expected s expected) s
      (paramTypes env expected params i)
      fun s' r => Assigns env s s' params r := by
  induction params generalizing i s with
  | nil => exact .pure fun hs => ⟨[], rfl, rfl, fun _ _ => .nil hs.1.stocked⟩
  | cons p rest ih =>
    rw [List.forall_mem_cons] at hparams
    obtain ⟨⟨name, type, hp⟩, hrest⟩ := hparams
    have hkind : symbolKind env.tree p ≠ .type := by simp [symbolKind_of_form hp, SymbolKind.ofForm]
    -- the type is recorded, and the others follow
    have hthen (s₁ : State) (σ : Nat) : Quiet ((Supplies env s ∧ (∀ q ∈ p :: rest, q ∈ env.tree.reached) ∧
        Expected s expected) ∧ Interns s s₁ ∧ s₁.types.Has σ ∧ ∀ w ∈ type, Denotes env s₁.typing w σ) s₁ (do
          if σ ≠ 0 then let _ ← record p σ
          let others ← paramTypes env expected rest (i + 1)
          return if σ = 0 then none else others.map (σ :: ·))
        fun s' r => Assigns env s s' (p :: rest) r := by
      refine .ite (fun hne => ?_) fun hzero => ?_
      · refine (quiet_record p σ).bind (fun hs => hs) fun s₂ _ => (ih hrest (i + 1) s₂).bind ?_ fun s₃ r => .pure ?_
        · rintro ⟨⟨⟨hs, hreached, hexpected⟩, hi, hhas, hwritten⟩, -, hs₂⟩
          obtain rfl := hs₂ hne
          refine ⟨(hs.interns hi).recorded hkind σ, fun q hq => hreached q (List.mem_cons_of_mem _ hq), ?_⟩
          exact fun σs ρ heq q hq => (hexpected σs ρ heq q hq).extends hi.types
        · rintro ⟨⟨⟨⟨hs, hreached, hexpected⟩, hi, hhas, hwritten⟩, -, hs₂⟩, σs, rfl, hbusy, hparametrizes⟩
          obtain rfl := hs₂ hne
          refine ⟨σ :: σs, by simp [hne], hbusy.trans hi.busy, fun hnodup hnone => ?_⟩
          rw [List.nodup_cons] at hnodup
          rw [List.forall_mem_cons] at hnone
          have hfills := Fills.recorded (τ := σ) hi.stocked (hi.info ▸ hnone.1) hhas
          refine .cons (hi.fills.trans hfills) (hasType_recorded.2 (.inl ⟨rfl, rfl⟩)) hhas (fun w hw => ?_)
            (hparametrizes hnodup.2 fun q hq => hfills.none (fun hmem => ?_) (hi.info ▸ hnone.2 q hq))
          · exact (hwritten w (by simpa [hp, Form.type?] using hw)).grow hfills.typing fun _ _ => trivial
          · exact hnodup.1 (List.mem_singleton.1 hmem ▸ hq)
      · refine (ih hrest (i + 1) s₁).void.bind (Q := fun _ _ => False) ?_ fun s₂ r => .pure fun hs => hs.2.elim
        exact fun hs => hs.2.2.1.ne_zero (Decidable.not_not.1 hzero)
    unfold paramTypes
    simp only [hp, Option.bind_some, Form.type?]
    cases type with
    | some w =>
      refine (resolvesBy_part hscene hp rfl s).bind (fun hs => ⟨hs.1, hs.2.1 p List.mem_cons_self⟩) fun s₁ σ =>
        (hthen s₁ σ).imp ?_ fun _ _ _ h => h
      rintro ⟨hs, hσ⟩
      refine ⟨hs, hσ.interns, hσ.has, fun w' hw' => ?_⟩
      obtain rfl := Option.some.inj hw'
      exact hσ.denotes
    | none =>
      dsimp only
      split
      · rename_i σs ρ
        split
        · rename_i σ hσ
          refine (hthen s σ).imp (fun hs => ⟨hs, .refl hs.1.stocked, ?_, by simp⟩) fun _ _ _ h => h
          exact hs.2.2 σs ρ rfl σ (List.mem_of_getElem? hσ)
        · exact .reported fun s₁ => (hthen s₁ 0).void
      · exact .reported fun s₁ => (hthen s₁ 0).void

end TypedScript.Check
