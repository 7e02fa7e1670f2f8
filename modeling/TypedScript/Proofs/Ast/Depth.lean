import TypedScript.Proofs.Ast.Grammar

/-!
# The recursion is deep enough

Every parser of the grammar takes tokens before it comes back to itself, so how deep the recursion goes is bounded
by a multiple of the number of tokens that are left. Where the depth is not below this bound, another depth makes
no difference: no parse is cut off.

* `Agrees`: two parsers do the same as long as no more than some number of tokens are left.
* `Does.agrees`: so do those that follow the rules of the grammar.
* `module_eq_of_le`: a file is parsed alike at every depth that is not below the bound.
-/

namespace TypedScript.Ast.Parser

open TypedScript.Source

variable {α β : Type} {writes : Prop} {front : Option Token} {n m k k' : Nat} {p q : Parser α} {f g : α → Parser β}

/-- The parsers do the same where the token is at the front, if there is one, and no more than `n` tokens are
left. They take at least `k` of them if they succeed. -/
def Agrees (front : Option Token) (n k : Nat) (p q : Parser α) : Prop := ∀ i s, s.Shows front → s.rest.length ≤ n →
  p i s = q i s ∧ (p i s).2.rest <:+ s.rest ∧ ((p i s).1.isSome → (p i s).2.rest.length + k ≤ s.rest.length)

theorem State.rest_advance (s : State) : s.advance.rest <:+ s.rest := by
  unfold State.advance
  split
  · exact List.suffix_refl _
  · exact List.tail_suffix _

/-- A token that is not the end of the file is taken. -/
theorem State.length_advance {s : State} (h : s.peek.kind ≠ .eof) : s.advance.rest.length + 1 ≤ s.rest.length := by
  rw [State.advance, if_neg h]
  unfold State.peek at h
  cases hrest : s.rest with
  | nil =>
    rw [hrest] at h
    exact absurd rfl h
  | cons tok rest => exact Nat.le_refl _

/-- Tokens are taken from the front. -/
theorem Assembled.suffix {α : Type} {p : Parser α} (h : Assembled writes p) (i : Input) (s : State) :
    (p i s).2.rest <:+ s.rest := by
  induction h generalizing s with
  | pure | fail | look | enough | write | reportAt => exact List.suffix_refl _
  | advance => exact s.rest_advance
  | eat kind =>
    unfold Parser.eat
    split
    · exact s.rest_advance
    · exact List.suffix_refl _
  | attempt _ ih => exact ih s
  | @bind α β p f _ _ ihp ihf =>
    have hp := ihp s
    rw [bind_apply]
    rcases hrun : p i s with ⟨_ | a, s'⟩ <;> rw [hrun] at hp
    · exact hp
    · exact (ihf a s').trans hp

/-! ### Combinators -/

namespace Agrees

theorem self (h : Assembled True p) : Agrees front n 0 p p :=
  fun i s _ _ => ⟨rfl, h.suffix i s, fun _ => (h.suffix i s).length_le⟩

theorem mono (h : Agrees front n k p q) (hk : k' ≤ k) : Agrees front n k' p q := by
  intro i s hfront hs
  obtain ⟨heq, hsuffix, htakes⟩ := h i s hfront hs
  exact ⟨heq, hsuffix, fun hsome => Nat.le_trans (Nat.add_le_add_left hk _) (htakes hsome)⟩

/-- What the first parser takes is not left for the second. -/
theorem bind (hp : Agrees front n k p q) (hf : ∀ a m, m + k ≤ n → Agrees none m k' (f a) (g a)) :
    Agrees front n (k + k') (p >>= f) (q >>= g) := by
  intro i s hfront hs
  obtain ⟨heq, hsuffix, htakes⟩ := hp i s hfront hs
  rw [bind_apply, bind_apply, ← heq]
  rcases hrun : p i s with ⟨_ | a, s'⟩ <;> rw [hrun] at hsuffix htakes
  · exact ⟨rfl, hsuffix, by simp⟩
  · have hle := htakes rfl
    dsimp only at hle hsuffix
    obtain ⟨heq, hsuffix', htakes⟩ := hf a s'.rest.length (by omega) i s' s'.shows_none (Nat.le_refl _)
    exact ⟨heq, hsuffix'.trans hsuffix, fun hsome => by have := htakes hsome; dsimp only; omega⟩

/-- The same after a parser of which it is of no matter how much it takes. -/
theorem andThen (hp : Agrees front n 0 p q) (hf : ∀ a m, m ≤ n → Agrees none m k (f a) (g a)) :
    Agrees front n k (p >>= f) (q >>= g) :=
  (hp.bind hf).mono (by omega)

/-- The first parser takes a token, after which there is one less. -/
theorem taking (hp : Agrees front n 1 p q) (hf : ∀ a m, m + 1 ≤ n → Agrees none m 0 (f a) (g a)) :
    Agrees front n 0 (p >>= f) (q >>= g) :=
  (hp.bind hf).mono (Nat.zero_le _)

end Agrees

theorem agrees_expect {kind : Token.Kind} (hkind : kind ≠ .eof) (problem : Problem) :
    Agrees front n 1 (expect kind problem) (expect kind problem) := by
  intro i s _ hs
  by_cases hpeek : s.peek.kind = kind
  · rw [expect_of_kind hpeek]
    exact ⟨rfl, s.rest_advance, fun _ => State.length_advance (hpeek ▸ hkind)⟩
  · rw [expect_of_ne hpeek]
    exact ⟨rfl, List.suffix_refl _, by simp⟩

/-! ### Lists -/

/-- Items take tokens, so there are no more of them than tokens. -/
theorem agrees_items {close : Token.Kind} {separator : Parser Bool} {item item' : Parser α}
    (hsep : ∀ m ≤ n, Agrees none m 0 separator separator) (hitem : ∀ m ≤ n, Agrees none m 1 item item')
    {fuel fuel' : Nat} (hfuel : n < fuel) (hfuel' : n < fuel') :
    Agrees none n 0 (items close separator item fuel) (items close separator item' fuel') := by
  induction fuel generalizing n fuel' with
  | zero => omega
  | succ fuel ih =>
    obtain ⟨fuel', rfl⟩ : ∃ m, fuel' = m + 1 := ⟨fuel' - 1, by omega⟩
    refine (Agrees.self (looks_isAt close).assembled).andThen fun b m hm => ?_
    split
    · exact .self (.pure _)
    refine (hitem m hm).taking fun a m hm => (hsep m (by omega)).andThen fun b m' hm' => ?_
    split
    · have hmore : Agrees none m' 0 (items close separator item fuel) (items close separator item' fuel') :=
        ih (fun j hj => hsep j (by omega)) (fun j hj => hitem j (by omega)) (by omega) (by omega)
      exact hmore.andThen fun as _ _ => .self (.pure _)
    · exact .self (.pure _)

/-- After a statement that failed a token is taken, unless the end of the file was at the front. -/
theorem resync_takes {i : Input} {s s' : State} (hpeek : s.peek.kind ≠ .eof) (hsuffix : s'.rest <:+ s.rest) :
    (resync s.rest.length i s').2.rest <:+ s.rest ∧ (resync s.rest.length i s').2.rest.length + 1 ≤
    s.rest.length := by
  have hsuffix' (t : State) : (skipToBoundary t.rest.length i t).2.rest <:+ t.rest :=
    (Assembled.skipToBoundary t.rest.length : Assembled False _).suffix i t
  by_cases hlength : s'.rest.length = s.rest.length
  · -- nothing was taken, so the front is as before
    have hrest : s'.rest = s.rest := hsuffix.eq_of_length hlength
    have hkind : s'.peek.kind ≠ .eof := by
      unfold State.peek at hpeek ⊢
      rw [hrest]
      cases hs : s.rest with
      | nil =>
        rw [hs] at hpeek
        exact absurd rfl hpeek
      | cons tok rest =>
        rw [hs] at hpeek
        exact hpeek
    have hrun : resync s.rest.length i s' = skipToBoundary s'.advance.rest.length i s'.advance := by
      simp [resync, bind_apply, get, hlength, advance]
    have hadvance := State.length_advance hkind
    rw [hrun]
    refine ⟨(hsuffix' _).trans (s'.rest_advance.trans hsuffix), ?_⟩
    have := (hsuffix' s'.advance).length_le
    omega
  · have hrun : resync s.rest.length i s' = skipToBoundary s'.rest.length i s' := by
      simp [resync, bind_apply, get, hlength]
    have hle := hsuffix.length_le
    rw [hrun]
    refine ⟨(hsuffix' _).trans hsuffix, ?_⟩
    have := (hsuffix' s').length_le
    omega

theorem agrees_statements {stops : List Token.Kind} (hstops : .eof ∈ stops) {stmt stmt' : Parser Nat}
    (hstmt : ∀ m ≤ n, Agrees none m 1 stmt stmt') {fuel fuel' : Nat} (hfuel : n < fuel) (hfuel' : n < fuel') :
    Agrees none n 0 (statements stops stmt fuel) (statements stops stmt' fuel') := by
  induction fuel generalizing n fuel' with
  | zero => omega
  | succ fuel ih =>
    obtain ⟨fuel', rfl⟩ : ∃ m, fuel' = m + 1 := ⟨fuel' - 1, by omega⟩
    intro i s hfront hs
    by_cases hstop : s.peek.kind ∈ stops ∨ i.enough s.errors = true
    · have hrun (stmt : Parser Nat) (fuel : Nat) : statements stops stmt (fuel + 1) i s = (some [], s) := by
        simp [statements, bind_apply, isAtAny, enough, hstop]
        rfl
      rw [hrun, hrun]
      exact ⟨rfl, List.suffix_refl _, fun _ => Nat.le_refl _⟩
    · have hrun (stmt : Parser Nat) (fuel : Nat) : statements stops stmt (fuel + 1) i s =
          match stmt i s with
          | (some id, s') => (do return id :: (← statements stops stmt fuel)) i s'
          | (none, s') => (do resync s.rest.length; statements stops stmt fuel) i s' := by
        simp [statements, bind_apply, isAtAny, enough, hstop, get, attempt]
        rcases stmt i s with ⟨_ | id, s'⟩ <;> rfl
      have hpeek : s.peek.kind ≠ .eof := fun heof => hstop (.inl (heof ▸ hstops))
      obtain ⟨heq, hsuffix, htakes⟩ := hstmt n (Nat.le_refl n) i s hfront hs
      rw [hrun, hrun, ← heq]
      rcases hstmtRun : stmt i s with ⟨_ | id, s'⟩ <;> rw [hstmtRun] at hsuffix htakes
      · -- the statement failed, and tokens are skipped
        obtain ⟨hsuffix', hle⟩ := resync_takes (i := i) hpeek hsuffix
        dsimp only
        rw [bind_apply, bind_apply]
        rcases hresync : resync s.rest.length i s' with ⟨_ | u, s''⟩ <;> rw [hresync] at hsuffix' hle
        · exact ⟨rfl, hsuffix', by simp⟩
        · dsimp only at hle
          have hmore : Agrees none s''.rest.length 0 (statements stops stmt fuel) (statements stops stmt' fuel') :=
            ih (fun m hm => hstmt m (by omega)) (by omega) (by omega)
          obtain ⟨heq, hsuffix'', htakes⟩ := hmore i s'' s''.shows_none (Nat.le_refl _)
          exact ⟨heq, hsuffix''.trans hsuffix', fun hsome => Nat.le_trans (htakes hsome) (by omega)⟩
      · have hle := htakes rfl
        dsimp only at hle
        have hmore : Agrees none s'.rest.length 0 (statements stops stmt fuel) (statements stops stmt' fuel') :=
          ih (fun m hm => hstmt m (by omega)) (by omega) (by omega)
        have hthen : Agrees none s'.rest.length 0 (do return id :: (← statements stops stmt fuel))
            (do return id :: (← statements stops stmt' fuel')) :=
          hmore.andThen fun ids m _ => .self (.pure _)
        obtain ⟨heq, hsuffix', htakes⟩ := hthen i s' s'.shows_none (Nat.le_refl _)
        exact ⟨heq, hsuffix'.trans hsuffix, fun hsome => Nat.le_trans (htakes hsome) (by omega)⟩

/-! ### The grammar -/

/-- What follows the rules does the same one step deeper. The induction is on the rules. -/
theorem Does.agrees {α : Type} {A : Prop} {n a b k : Nat} {front : Option Token} {ins : List Piece} {p q : Parser α}
    {outs : α → List Piece} (h : Does (fun _ => True) A n a b k front ins p q outs) (hA : A) :
    Agrees front n k p q := by
  induction h with
  | never h => exact absurd hA h
  | pure => exact .self (.pure _)
  | reject hr =>
    intro i s _ _
    obtain ⟨g, problem, rfl⟩ := hr
    exact ⟨rfl, List.suffix_refl _, fun hsome => absurd hsome Bool.false_ne_true⟩
  | warn hr _ ih =>
    intro i s hfront hn
    obtain ⟨g, problem, rfl⟩ := hr
    exact ih hA i (reportAt (g s) problem i s).2 (State.shows_none _) hn
  | bind _ _ ihp ihf => exact (ihp hA).bind fun x m hm => ihf x m ⟨hA, hm⟩
  | weaken _ hA' hk _ ih => exact (ih (hA' hA)).mono hk
  | look hp _ ihf =>
    intro i s hfront hn
    obtain ⟨x, hx⟩ := hp.bind_eq i s
    rw [hx, hx]
    exact ihf x hA i s hfront hn
  | peek _ ihf => exact fun i s _ hn => ihf s.peek (fun _ => trivial) hA i s s.shows_peek hn
  | anywhere _ ih => exact fun i s _ hn => ih hA i s s.shows_none hn
  | advance hkind =>
    intro i s hfront _
    exact ⟨rfl, s.rest_advance, fun _ => State.length_advance (hfront.eq ▸ hkind.ne_eof)⟩
  | expect hkind _ ihf =>
    exact (agrees_expect hkind.ne_eof _).bind fun tok m hm => ihf tok m (fun _ => trivial) ⟨hA, hm⟩
  | eat => exact .self (.eat _)
  | @ended _ _ _ _ _ _ f g _ htrue hfalse ih =>
    refine (Agrees.self .endStatement).andThen fun ended m hm => ?_
    cases ended with
    | true => exact ih m ⟨hA, hm⟩
    | false =>
      rcases hfalse with ⟨hf, hg⟩ | ⟨hf, hg⟩ <;> rw [hf, hg]
      · exact ih m ⟨hA, hm⟩
      · exact .self .fail
  | items _ _ hfuel ihsep ihitem =>
    have hlt := hfuel hA
    exact agrees_items (fun m hm => ihsep m ⟨hA, hm⟩) (fun m hm => ihitem m ⟨hA, hm⟩) hlt (by omega)
  | statements hstops _ hfuel ihstmt =>
    have hlt := hfuel hA
    exact agrees_statements hstops (fun m hm => ihstmt m ⟨hA, hm⟩) hlt (by omega)
  | write _ h => exact .self h.assembled
  | spanOf _ ihf =>
    intro i s hfront hn
    obtain ⟨span, hspan⟩ := (looks_spanOf _).bind_eq i s
    rw [hspan, hspan]
    exact ihf span hA i s hfront hn
  | mark _ ih | ofToken _ ih | relax _ _ ih => exact ih hA

/-! ### Files -/

/-- A whole file, with a recursion of the given depth. -/
def moduleFrom (depth : Nat) : Parser Nat := do
  let start := (← peek).span
  let body ← statements [.eof] (stmt depth) depth
  writeFrom (.module body) start

/-- Where the recursion may go as deep as the bound, it makes no difference how much deeper it may go. -/
theorem module_eq_of_le {i : Input} {s : State} {depth : Nat} (h : depthFor s.rest.length ≤ depth) :
    moduleFrom depth i s = module i s := by
  induction depth with
  | zero => exact absurd h (by unfold depthFor; omega)
  | succ depth ih =>
    rcases Nat.lt_or_eq_of_le h with hlt | heq
    · rw [← ih (by omega)]
      have hdepth : depthFor s.rest.length = 16 * s.rest.length + 16 := by unfold depthFor; omega
      have hstmt (m : Nat) (hm : m ≤ s.rest.length) : Agrees none m 1 (stmt depth) (stmt (depth + 1)) :=
        (stmtsDo trivial trivial depth).stmt m 0 |>.agrees (by omega)
      have hstatements : Agrees none s.rest.length 0 (statements [.eof] (stmt depth) depth)
          (statements [.eof] (stmt (depth + 1)) (depth + 1)) :=
        agrees_statements (by decide) hstmt (by omega) (by omega)
      unfold moduleFrom
      rw [bind_apply, bind_apply]
      dsimp only [peek]
      rw [bind_apply, bind_apply, (hstatements i s s.shows_none (Nat.le_refl _)).1]
    · rw [← heq]
      rfl

end TypedScript.Ast.Parser
