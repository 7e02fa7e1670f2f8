import Mathlib.Order.Filter.AtTopBot.Basic
import Mathlib.Order.Filter.Finite
import TypedScript.Proofs.Ast.Expression

/-!
# Types are read back

How deep the recursion of a parser may go matters only if it is not deep enough, so what is read is read at every
depth that is great enough.
-/

namespace TypedScript.Ast

open Filter TypedScript.Token

namespace Parser

variable {α β ι : Type} {pre : Fact} {ws : List Word} {ok : Kind → Prop}

/-! ### Depths and lists -/

theorem eventually_add {P Q : Nat → Prop} (n : Nat) (h : ∀ᶠ d in atTop, Q d) (hP : ∀ d, Q d → P (d + n)) :
    ∀ᶠ d in atTop, P d := by
  rw [← map_add_atTop_eq_nat n]
  exact eventually_map.2 (h.mono hP)

/-- What holds one step higher if it holds at a great depth holds at a great depth. -/
theorem eventually_succ {P Q : Nat → Prop} (h : ∀ᶠ d in atTop, Q d) (hP : ∀ d, Q d → P (d + 1)) :
    ∀ᶠ d in atTop, P d :=
  eventually_add 1 h hP

theorem eventually_of_succ {P : Nat → Prop} (h : ∀ d, P (d + 1)) : ∀ᶠ d in atTop, P d :=
  eventually_succ (Q := fun _ => True) (.of_forall fun _ => trivial) fun d _ => h d

theorem eventually_shift {P : Nat → Prop} (h : ∀ᶠ d in atTop, P d) (n : Nat) : ∀ᶠ d in atTop, P (d + n) :=
  (tendsto_add_atTop_nat n).eventually h

theorem eventually_forall_mem {P : ι → Nat → Prop} {xs : List ι} (h : ∀ x ∈ xs, ∀ᶠ d in atTop, P x d) :
    ∀ᶠ d in atTop, ∀ x ∈ xs, P x d := (eventually_all_finite xs.finite_toSet).2 h

/-- A parser reads the same whatever is known. -/
theorem Returns.under {p : Parser α} {post : α → Fact} (h : Returns .none p ws ok post) :
    Returns pre p ws ok post :=
  h.mono (fun _ _ => trivial) fun _ => id

/-- The parser takes a comma, and nothing before the token `close`. -/
structure Separates (close : Kind) (p : Parser Bool) : Prop where
  comma (i : Input) (s : State) : front s.words = .comma → p i s = (some true, s.advance)
  close (i : Input) (s : State) : front s.words = close → p i s = (some false, s)

theorem separates_eat {close : Kind} (hclose : close ≠ .comma) : Separates close (eat .comma) where
  comma _ s h := eat_true (by rw [kind_peek, h])
  close _ s h := eat_false (by rwa [kind_peek, h])

theorem separates_field : Separates .rbrace do
    if ← eat .comma then return true
    eat .semicolon where
  comma i s h := by
    rw [bind_apply, eat_true (by rw [kind_peek, h])]
    rfl
  close i s h := by
    rw [bind_apply, eat_false (i := i) (by rw [kind_peek, h]; decide)]
    exact eat_false (i := i) (by rw [kind_peek, h]; decide)

/-- Items with commas between them are read one after another. -/
theorem returns_items {close : Kind} {separator : Parser Bool} {item : Parser Nat}
    (hsep : Separates close separator) {words : ι → List Word} {fact : ι → Nat → Fact} {xs : List ι}
    (hitem : ∀ x ∈ xs, Returns .none item (words x) (fun k => k = .comma ∨ k = close) (fact x))
    (hwords : ∀ x ∈ xs, ∀ more, front (words x ++ more) ≠ close) {fuel : Nat} (hfuel : xs.length < fuel) :
    Returns pre (items close separator item fuel) (Word.commas (xs.map words)) (· = close) (.forall₂ fact xs) := by
  induction xs generalizing fuel pre with
  | nil =>
    obtain ⟨fuel, rfl⟩ : ∃ m, fuel = m + 1 := ⟨fuel - 1, by omega⟩
    refine .isAt (b := true) (fun more hmore => decide_eq_true hmore) ?_
    exact .pure [] fun _ _ => List.Forall₂.nil
  | cons x xs ih =>
    obtain ⟨fuel, rfl⟩ : ∃ m, fuel = m + 1 := ⟨fuel - 1, by simp at hfuel; omega⟩
    obtain ⟨hx, hitem⟩ := List.forall_mem_cons.1 hitem
    obtain ⟨hfirst, hwords⟩ := List.forall_mem_cons.1 hwords
    rw [List.map_cons, Word.commas_cons]
    refine .isAt (b := false) (fun more _ => decide_eq_false (by simpa using hfirst _)) ?_
    cases xs with
    | nil =>
      refine .bind hx.under (fun id => ?_) fun more hmore => .inr hmore
      refine .stay (P := (· = close)) (v := false) hsep.close (fun more hmore => hmore) ?_
      exact .pure [id] fun forms h => List.Forall₂.cons h.2 .nil
    | cons y ys =>
      refine .bind hx.under (fun id => ?_) fun more hmore => .inl rfl
      refine .take (v := true) (by decide) (fun i s hs => hsep.comma i s hs) ?_
      refine .bind' (ih hitem hwords (by simp at hfuel ⊢; omega)) fun ids => ?_
      exact .pure (id :: ids) fun forms h => List.Forall₂.cons h.1.2 h.2

/-! ### Types -/

theorem returns_typeField {f : String × TypeExpr}
    (ht : ∀ᶠ d in atTop, Returns .none (type d) f.2.words (fun _ => True) f.2.fact) :
    ∀ᶠ d in atTop, Returns .none (typeField d) (TypeExpr.Field.words f) (fun _ => True)
      (TypeExpr.Field.fact f) := by
  refine eventually_succ ht fun d ht => ?_
  refine .expect rfl (by decide) ?_
  rintro ⟨_, span, _, raw⟩ ⟨⟩
  refine .expect rfl (by decide) fun _ _ => ?_
  refine .bind' ht.under fun x => ?_
  exact (returns_writeFrom _ _).imp fun id forms h hid => ⟨x, hid, h.2⟩

theorem returns_ascription {t : Option TypeExpr}
    (ht : ∀ x ∈ t, ∀ᶠ d in atTop, Returns .none (type d) x.words (fun _ => True) x.fact) :
    ∀ᶠ d in atTop, Returns .none (ascription? d) (t.elim [] fun x => .symbol .colon :: x.words) (· ≠ .colon)
      (TypeExpr.ascribedFact t) := by
  cases t with
  | none =>
    refine eventually_of_succ fun d => ?_
    refine .eatNot (fun more hmore => hmore) ?_
    exact .pure _ fun _ _ => rfl
  | some x =>
    refine eventually_succ (ht x rfl) fun d hx => ?_
    refine .eat rfl (by decide) ?_
    refine .bind' (hx.mono (fun _ _ => trivial) fun _ _ => trivial) fun r => ?_
    exact .pure _ fun _ h => ⟨r, rfl, h.2⟩

theorem returns_param {p : String × Option TypeExpr}
    (ht : ∀ x ∈ p.2, ∀ᶠ d in atTop, Returns .none (type d) x.words (fun _ => True) x.fact) :
    ∀ᶠ d in atTop, Returns .none (param d) (TypeExpr.Param.words p) (· ≠ .colon) (TypeExpr.Param.fact p) := by
  refine eventually_succ (returns_ascription ht) fun d ht => ?_
  refine .expect rfl (by decide) ?_
  rintro ⟨_, span, _, raw⟩ ⟨⟩
  refine .bind' ht.under fun r => ?_
  exact (returns_writeFrom _ _).imp fun id forms h hid => ⟨r, hid, h.2⟩

theorem returns_params {ps : List (String × Option TypeExpr)}
    (hps : ∀ p ∈ ps, ∀ᶠ d in atTop, Returns .none (param d) (TypeExpr.Param.words p) (· ≠ .colon)
    (TypeExpr.Param.fact p)) :
    ∀ᶠ d in atTop, Returns .none (params d) (Word.parens (Word.commas (TypeExpr.paramWords ps)))
      (fun _ => True) (.forall₂ TypeExpr.Param.fact ps) := by
  refine eventually_succ ((eventually_forall_mem hps).and (eventually_gt_atTop ps.length))
    fun d ⟨hps, hlength⟩ => ?_
  rw [TypeExpr.paramWords_eq]
  refine .expect rfl (by decide) fun _ _ => ?_
  have hitem : ∀ p ∈ ps, Returns .none (param d) (TypeExpr.Param.words p) (fun k => k = .comma ∨ k = .rparen)
      (TypeExpr.Param.fact p) := fun p hp => (hps p hp).mono (fun _ h => h) (by rintro _ (rfl | rfl) <;> decide)
  have hfirst : ∀ p ∈ ps, ∀ more, front (TypeExpr.Param.words p ++ more) ≠ .rparen := fun _ _ _ => by
    simp [TypeExpr.Param.words, front, Word.name]
  refine .bind (returns_items (separates_eat (by decide)) hitem hfirst hlength) (fun ids => ?_) fun _ _ => rfl
  refine .expect rfl (by decide) fun _ _ => ?_
  exact .pure _ fun _ h => h.2

mutual

/-- Types are read back. -/
theorem returns_type : ∀ t : TypeExpr, t.IsProper →
    ∀ᶠ d in atTop, Returns .none (type d) t.words (fun _ => True) t.fact
  | .name n, hn => by
    refine eventually_of_succ fun d => ?_
    by_cases h : n = "null"
    · rw [TypeExpr.words, if_pos h, h]
      refine .peek rfl ?_
      rintro ⟨_, span, _, raw⟩ ⟨⟩
      refine .advance (fun h => nomatch h) fun _ _ => ?_
      exact (returns_write _ _).imp fun id forms _ hid => hid
    · rw [TypeExpr.words, if_neg h]
      refine .peek rfl ?_
      rintro ⟨_, span, _, raw⟩ ⟨⟩
      refine .advance (fun h => nomatch h) fun _ _ => ?_
      exact (returns_write _ _).imp fun id forms _ hid => hid
  | .object fields, hfields => by
    refine eventually_succ ((eventually_forall_mem (returns_fields fields hfields)).and
      (eventually_gt_atTop fields.length)) fun d ⟨hitem, hlength⟩ => ?_
    rw [TypeExpr.words, TypeExpr.fieldWords_eq]
    have hfirst : ∀ f ∈ fields, ∀ more, front (TypeExpr.Field.words f ++ more) ≠ .rbrace := fun _ _ _ => by
      simp [TypeExpr.Field.words, front, Word.name]
    refine .peek rfl ?_
    rintro ⟨_, span, _, raw⟩ ⟨⟩
    refine .advance (by decide) fun _ _ => ?_
    refine .bind (returns_items separates_field (fun f hf => (hitem f hf).mono (fun _ h => h) fun _ _ => trivial)
      hfirst hlength) (fun ids => ?_) fun _ _ => rfl
    refine .expect rfl (by decide) fun _ _ => ?_
    exact (returns_writeFrom _ _).imp fun id forms h hid => ⟨ids, hid, TypeExpr.fieldsAt_of_forall₂ h.2⟩
  | .func ps result, ⟨hps, hresult⟩ => by
    refine eventually_succ ((returns_params (returns_ps ps hps)).and (returns_type result hresult))
      fun d ⟨hps, hresult⟩ => ?_
    rw [TypeExpr.words]
    refine .peek rfl ?_
    rintro ⟨_, span, _, raw⟩ ⟨⟩
    refine .bind hps.under (fun ids => ?_) fun _ _ => trivial
    refine .expect rfl (by decide) fun _ _ => ?_
    refine .bind' hresult.under fun r => ?_
    exact (returns_writeFrom _ _).imp fun id forms h hid =>
      ⟨ids, r, hid, TypeExpr.paramsAt_of_forall₂ h.1.2, h.2⟩
  termination_by structural t => t

theorem returns_fields : ∀ fields : List (String × TypeExpr), TypeExpr.FieldsProper fields → ∀ f ∈ fields,
    ∀ᶠ d in atTop, Returns .none (typeField d) (TypeExpr.Field.words f) (fun _ => True) (TypeExpr.Field.fact f)
  | [], _, _, hf => nomatch hf
  | (n, t) :: fields, ⟨_, ht, hfields⟩, f, hf => by
    obtain rfl | hf := List.mem_cons.1 hf
    · exact returns_typeField (returns_type t ht)
    · exact returns_fields fields hfields f hf
  termination_by structural fields => fields

theorem returns_ps : ∀ ps : List (String × Option TypeExpr), TypeExpr.ParamsProper ps → ∀ p ∈ ps,
    ∀ᶠ d in atTop, Returns .none (param d) (TypeExpr.Param.words p) (· ≠ .colon) (TypeExpr.Param.fact p)
  | [], _, _, hp => nomatch hp
  | (n, none) :: ps, ⟨_, hps⟩, p, hp => by
    obtain rfl | hp := List.mem_cons.1 hp
    · exact returns_param nofun
    · exact returns_ps ps hps p hp
  | (n, some t) :: ps, ⟨_, ht, hps⟩, p, hp => by
    obtain rfl | hp := List.mem_cons.1 hp
    · exact returns_param fun x hx => Option.some_injective _ hx ▸ returns_type t ht
    · exact returns_ps ps hps p hp
  termination_by structural ps => ps

end

end Parser

end TypedScript.Ast
