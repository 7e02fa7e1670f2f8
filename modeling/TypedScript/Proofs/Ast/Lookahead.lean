import TypedScript.Proofs.Ast.Tidy

/-!
# Looking ahead for arrows

At an opening parenthesis there may be the parameters of an arrow function or an expression. Which of them it is,
is found by a scan for an arrow or a colon behind the partner of the parenthesis.

* `closesBeforeArrow_of_took`: what the scan finds where parentheses are in pairs.
* `primary_parens`: what is read at an opening parenthesis.
-/

namespace TypedScript.Ast.Parser

open TypedScript.Source

variable {α β : Type} {i : Input} {s s' s₁ : State} {depth : Nat} {p : Parser α} {f : α → Parser β}
    {kind : Token.Kind}

theorem exists_of_bind {x : β} (h : (p >>= f) i s = (some x, s')) : ∃ y t, p i s = (some y, t) ∧
    f y i t = (some x, s') := by
  rw [bind_apply] at h
  rcases hrun : p i s with ⟨_ | y, t⟩ <;> rw [hrun] at h
  · cases h
  · exact ⟨y, t, rfl, h⟩

theorem of_expect_eq_some {problem : Problem} {tok : Token} (h : expect kind problem i s = (some tok, s')) :
    s.peek.kind = kind ∧ s' = s.advance := by
  by_cases hkind : s.peek.kind = kind
  · rw [expect_of_kind hkind] at h
    cases h
    exact ⟨hkind, rfl⟩
  · rw [expect_of_ne hkind] at h
    cases h

/-- The scan finds the partner of a parenthesis, unless there is a semicolon on the way. -/
theorem closesBeforeArrow_of_took {k : Nat} (hopen : s.peek.kind = .lparen) (htook : Took 0 0 k s.advance s₁)
    (hclose : s₁.peek.kind = .rparen) : ∃ taken, s.rest = taken ++ s₁.advance.rest ∧ closesBeforeArrow 0
    (s.rest.map (·.kind)) =
      (!(taken.map (·.kind)).contains .semicolon &&
        (s₁.advance.peek.kind == .fatArrow || s₁.advance.peek.kind == .colon)) := by
  obtain ⟨inner, hinner, -, hnests⟩ := htook
  have hfirst : s.rest = s.peek :: s.advance.rest := State.rest_eq_cons (by rw [hopen]; decide)
  have hlast : s₁.rest = s₁.peek :: s₁.advance.rest := State.rest_eq_cons (by rw [hclose]; decide)
  have hfront : closesBeforeArrow 1 (.rparen :: s₁.advance.rest.map (·.kind)) =
      (s₁.advance.peek.kind == .fatArrow || s₁.advance.peek.kind == .colon) := by
    unfold State.peek
    cases s₁.advance.rest <;> rfl
  refine ⟨s.peek :: inner ++ [s₁.peek], ?_, ?_⟩
  · rw [hfirst, hinner, hlast]
    simp
  · have hscan := hnests 0 (.rparen :: s₁.advance.rest.map (·.kind))
    have hstart (ks : List Token.Kind) : closesBeforeArrow 0 (.lparen :: ks) = closesBeforeArrow 1 ks := rfl
    rw [hfirst, hinner, hlast, List.map_cons, hopen, List.map_append, List.map_cons, hclose, hstart]
    simpa [hopen, hclose, hfront] using hscan

/-- An expression in parentheses. -/
def parenthesised (depth : Nat) : Parser Nat := do
  let _ ← advance
  let x ← expr depth
  let _ ← expect .rparen .unclosedParen
  return x

theorem primary_eq_of_lparen (hopen : s.peek.kind = .lparen) : primary (depth + 1) i s =
    if closesBeforeArrow 0 (s.rest.map (·.kind)) then (params depth >>= arrowRest depth s.peek.span) i s
    else parenthesised depth i s := by
  rw [primary, bind_apply]
  simp only [peek, hopen]
  rw [bind_apply]
  simp only [isArrowAhead]
  split <;> rfl

theorem form_of_writeFrom {form : Form} {span : Span} {x : Nat} (h : writeFrom form span i s = (some x, s')) :
    (s'.node? x).map (·.form) = some form := by
  cases h
  simp [State.node?]

/-- How an arrow function goes on behind its parameters, and what it consists of. -/
theorem of_arrowRest_eq_some {start : Span} {ps : List Nat} {x : Nat}
    (h : arrowRest depth start ps i s = (some x, s')) :
    (s.peek.kind = .fatArrow ∨ s.peek.kind = .colon) ∧
      ∃ result body, (s'.node? x).map (·.form) = some (.arrowFunc ps result body) := by
  cases depth with
  | zero =>
    rw [arrowRest] at h
    cases h
  | succ depth =>
    rw [arrowRest] at h
    obtain ⟨result, t, hresult, h⟩ := exists_of_bind h
    obtain ⟨tok, t', harrow, h⟩ := exists_of_bind h
    constructor
    · by_cases hcolon : s.peek.kind = .colon
      · exact .inr hcolon
      · -- without a colon nothing is taken before the arrow
        cases depth with
        | zero =>
          rw [ascription?] at hresult
          cases hresult
        | succ depth =>
          rw [ascription?, bind_apply, eat, if_neg hcolon] at hresult
          cases hresult
          exact .inl (of_expect_eq_some harrow).1
    · obtain ⟨b, t, hb, h⟩ := exists_of_bind h
      dsimp only at h
      split at h
      · obtain ⟨body, t, hbody, h⟩ := exists_of_bind h
        exact ⟨result, body, form_of_writeFrom h⟩
      · obtain ⟨body, t, hbody, h⟩ := exists_of_bind h
        exact ⟨result, body, form_of_writeFrom h⟩

/-- What is read at an opening parenthesis.

If parameters are read there, and the rest of an arrow function behind them, it is an arrow function with these
parameters, unless there is a semicolon among their tokens: then an expression in parentheses is expected. If such
an expression is read, and neither an arrow nor a colon follows, it is this expression. -/
theorem primary_parens (hopen : s.peek.kind = .lparen) (hdepth : 16 * s.rest.length + 1 ≤ depth) :
    (∀ ps s₁ x s₂, params depth i s = (some ps, s₁) → s₁.errors = s.errors →
      arrowRest depth s.peek.span ps i s₁ = (some x, s₂) → ∃ taken, s.rest = taken ++ s₁.rest ∧
        ((∀ tok ∈ taken, tok.kind ≠ .semicolon) → primary (depth + 1) i s = (some x, s₂) ∧
          ∃ result body, (s₂.node? x).map (·.form) = some (.arrowFunc ps result body)) ∧
        ((∃ tok ∈ taken, tok.kind = .semicolon) → primary (depth + 1) i s = parenthesised depth i s)) ∧
    ∀ x s₁, parenthesised depth i s = (some x, s₁) → s₁.errors = s.errors →
      s₁.peek.kind ≠ .fatArrow → s₁.peek.kind ≠ .colon → primary (depth + 1) i s = (some x, s₁) := by
  have hlength : s.rest.length = s.advance.rest.length + 1 :=
    congrArg List.length (State.rest_eq_cons (by rw [hopen]; decide))
  constructor
  · intro ps s₁ x s₂ hparams hsilent harrow
    obtain ⟨hfront, hform⟩ := of_arrowRest_eq_some harrow
    obtain ⟨inner, rfl⟩ : ∃ d, depth = d + 1 := ⟨depth - 1, by omega⟩
    have hrun := hparams
    rw [params] at hrun
    obtain ⟨_, t, hexpect, hrun⟩ := exists_of_bind hrun
    obtain ⟨-, rfl⟩ := of_expect_eq_some hexpect
    obtain ⟨ps', t, hitems, hrun⟩ := exists_of_bind hrun
    obtain ⟨_, t', hexpect', hrun⟩ := exists_of_bind hrun
    obtain ⟨hclose, rfl⟩ := of_expect_eq_some hexpect'
    cases hrun
    -- nothing was reported between the parentheses, so the tokens there are balanced
    have hdo : TypesDo (fun _ => True) inner := typesDo trivial trivial inner
    have htidy := (hdo.paramItems (n := s.advance.rest.length) (a := 0)).tidy (by omega)
    have htook := htidy i s.advance s.advance.shows_none (Nat.le_refl _)
    rw [hitems] at htook
    rw [errors_advance] at hsilent
    obtain ⟨taken, hrest, hscan⟩ :=
      closesBeforeArrow_of_took hopen (htook (by rw [errors_advance]; exact hsilent)).2 hclose
    refine ⟨taken, hrest, fun hnone => ⟨?_, hform⟩, fun hsome => ?_⟩
    · have hahead : closesBeforeArrow 0 (s.rest.map (·.kind)) = true := by
        rw [hscan]
        simpa [hfront] using hnone
      rw [primary_eq_of_lparen hopen, if_pos hahead, bind_apply, hparams]
      exact harrow
    · have hahead : closesBeforeArrow 0 (s.rest.map (·.kind)) = false := by
        rw [hscan]
        simp [hsome]
      rw [primary_eq_of_lparen hopen, if_neg (by rw [hahead]; exact Bool.false_ne_true)]
  · intro x s₁ hparens hsilent harrow hcolon
    have hrun := hparens
    obtain ⟨_, t, hadvance, hrun⟩ := exists_of_bind hrun
    cases hadvance
    obtain ⟨y, t, hexpr, hrun⟩ := exists_of_bind hrun
    obtain ⟨_, t', hexpect, hrun⟩ := exists_of_bind hrun
    obtain ⟨hclose, rfl⟩ := of_expect_eq_some hexpect
    cases hrun
    have hdo : StmtsDo (fun _ => True) depth := stmtsDo trivial trivial depth
    have htidy := (hdo.expr s.advance.rest.length 0).tidy (by omega)
    have htook := htidy i s.advance s.advance.shows_none (Nat.le_refl _)
    rw [hexpr] at htook
    rw [errors_advance] at hsilent
    obtain ⟨taken, -, hscan⟩ :=
      closesBeforeArrow_of_took hopen (htook (by rw [errors_advance]; exact hsilent)).2 hclose
    have hahead : closesBeforeArrow 0 (s.rest.map (·.kind)) = false := by
      rw [hscan]
      simp [harrow, hcolon]
    rw [primary_eq_of_lparen hopen, if_neg (by rw [hahead]; exact Bool.false_ne_true)]
    exact hparens

/-- The tokens of `(p: { a: n, b: n }) => p`, with the given separator of the fields. -/
def arrowTokens (separator : Token.Kind) : List Token :=
  [⟨.lparen, {}, "", []⟩, ⟨.ident, {}, "p", []⟩, ⟨.colon, {}, "", []⟩, ⟨.lbrace, {}, "", []⟩, ⟨.ident, {}, "a", []⟩,
    ⟨.colon, {}, "", []⟩, ⟨.ident, {}, "n", []⟩, ⟨separator, {}, "", []⟩, ⟨.ident, {}, "b", []⟩,
    ⟨.colon, {}, "", []⟩,
    ⟨.ident, {}, "n", []⟩, ⟨.rbrace, {}, "", []⟩, ⟨.rparen, {}, "", []⟩, ⟨.fatArrow, {}, "", []⟩,
    ⟨.ident, {}, "p", []⟩,
    ⟨.eof, {}, "", []⟩]

theorem eq_of_fst {r : Option α × State} {x : α} (h : r.1 = some x) : r = (some x, r.2) := Prod.ext h rfl

/-- With commas between the fields an arrow function is read, whose parameter is the sixth node. -/
theorem primary_parens_commas :
    (State.peek { rest := arrowTokens .comma }).kind = .lparen ∧ 16 * (arrowTokens .comma).length + 1 ≤ 257 ∧
      (params 257 ⟨{}, 0⟩ { rest := arrowTokens .comma }).1 = some [6] ∧
      ∃ s result body, primary 258 ⟨{}, 0⟩ { rest := arrowTokens .comma } = (some 8, s) ∧
        (s.node? 8).map (·.form) = some (.arrowFunc [6] result body) := by
  have hopen : (State.peek { rest := arrowTokens .comma }).kind = .lparen := rfl
  have hdepth : 16 * (arrowTokens .comma).length + 1 ≤ 257 := by decide
  have hparams : (params 257 ⟨{}, 0⟩ { rest := arrowTokens .comma }).1 = some [6] := by decide +kernel
  have hsilent : (params 257 ⟨{}, 0⟩ { rest := arrowTokens .comma }).2.errors = 0 := by decide +kernel
  have harrow : (arrowRest 257 {} [6] ⟨{}, 0⟩ (params 257 ⟨{}, 0⟩ { rest := arrowTokens .comma }).2).1 =
    some 8 := by
    decide +kernel
  have hplain : ∀ tok ∈ arrowTokens .comma, tok.kind ≠ .semicolon := by decide
  obtain ⟨taken, hrest, hread, -⟩ :=
    (primary_parens (i := ⟨{}, 0⟩) hopen hdepth).1 _ _ _ _ (eq_of_fst hparams) hsilent
    (eq_of_fst harrow)
  have hmem : ∀ tok ∈ taken, tok ∈ arrowTokens .comma := fun tok htok => by
    have hrest' : arrowTokens .comma = _ := hrest
    rw [hrest']
    exact List.mem_append_left _ htok
  obtain ⟨hprimary, result, body, hform⟩ := hread fun tok htok => hplain tok (hmem tok htok)
  exact ⟨hopen, hdepth, hparams, _, result, body, hprimary, hform⟩

/-- With semicolons between the fields nothing is read. -/
example : (primary 258 ⟨{}, 0⟩ { rest := arrowTokens .semicolon }).1 = none := by decide +kernel

end TypedScript.Ast.Parser
