import TypedScript.Proofs.Ast.Depth
import TypedScript.Proofs.Ast.Limit

/-!
# Parentheses in pairs

Whether a parenthesis opens the parameters of an arrow function is found by a scan that counts parentheses and
gives up at a semicolon. What the grammar reads without reporting anything opens and closes parentheses in pairs,
so the scan passes over it unless it gives up.

* `Nests`: tokens that the scan passes over.
* `Tidy`: a parser that reads such tokens, unless it reports something.
* `Does.tidy`: so do the parsers that follow the rules of the grammar.
-/

namespace TypedScript.Ast.Parser

open TypedScript.Source

/-! ### Nesting -/

/-- Inside parentheses the tokens lead from `a` open ones to `b` open ones and no further out: the scan passes
over them, but for semicolons. -/
def Nests (a b : Nat) (ks : List Token.Kind) : Prop := ∀ depth rest, closesBeforeArrow
    (depth + a + 1) (ks ++ rest) =
  (!ks.contains .semicolon && closesBeforeArrow (depth + b + 1) rest)

namespace Nests

variable {a b c : Nat} {ks ks' : List Token.Kind}

theorem nil : Nests a a [] := fun _ _ => rfl

theorem append (h : Nests a b ks) (h' : Nests b c ks') : Nests a c (ks ++ ks') := by
  intro depth rest
  rw [List.append_assoc, h, h', ← Bool.and_assoc]
  congr 1
  simp

theorem single {kind : Token.Kind} (h : Turns kind a b) : Nests a b [kind] := by
  intro depth rest
  cases h with
  | plain hkind =>
    cases kind
    case lparen | rparen | eof => exact absurd hkind (by decide)
    all_goals rfl
  | opened hkind =>
    subst hkind
    rfl
  | closed hkind =>
    subst hkind
    have hinner : ¬depth + (b + 1) + 1 ≤ 1 := by omega
    rw [List.singleton_append]
    conv_lhs => unfold closesBeforeArrow
    exact if_neg hinner

end Nests

/-- Between the states at least `k` tokens are taken, which lead from `a` open parentheses to `b`. -/
def Took (a b k : Nat) (s s' : State) : Prop :=
  ∃ taken, s.rest = taken ++ s'.rest ∧ k ≤ taken.length ∧ Nests a b (taken.map (·.kind))

theorem State.rest_eq_cons {s : State} (h : s.peek.kind ≠ .eof) : s.rest = s.peek :: s.advance.rest := by
  rw [State.advance, if_neg h]
  unfold State.peek at h ⊢
  cases hrest : s.rest with
  | nil =>
    rw [hrest] at h
    exact absurd rfl h
  | cons tok rest => rfl

namespace Took

variable {a b c k k' : Nat} {s s' s'' : State}

theorem refl : Took a a 0 s s := ⟨[], rfl, Nat.le_refl 0, .nil⟩

theorem of_rest (h : s'.rest = s.rest) : Took a a 0 s s' := ⟨[], h.symm, Nat.le_refl 0, .nil⟩

theorem trans (h : Took a b k s s') (h' : Took b c k' s' s'') : Took a c (k + k') s s'' := by
  obtain ⟨taken, hrest, hk, hnests⟩ := h
  obtain ⟨taken', hrest', hk', hnests'⟩ := h'
  refine ⟨taken ++ taken', by rw [hrest, hrest', List.append_assoc], by rw [List.length_append]; omega, ?_⟩
  rw [List.map_append]
  exact hnests.append hnests'

theorem mono (h : Took a b k s s') (hk : k' ≤ k) : Took a b k' s s' := by
  obtain ⟨taken, hrest, hle, hnests⟩ := h
  exact ⟨taken, hrest, Nat.le_trans hk hle, hnests⟩

theorem length_le (h : Took a b k s s') : s'.rest.length + k ≤ s.rest.length := by
  obtain ⟨taken, hrest, hk, -⟩ := h
  rw [hrest, List.length_append]
  omega

/-- A token is taken. -/
theorem advance (h : Turns s.peek.kind a b) : Took a b 1 s s.advance :=
  ⟨[s.peek], State.rest_eq_cons h.ne_eof, Nat.le_refl 1, .single h⟩

end Took

/-! ### Tidy parsers -/

variable {α β : Type} {front : Option Token} {n a b c k k' : Nat} {p : Parser α} {f : α → Parser β}
    {kind : Token.Kind}

/-- Where the token is at the front, if there is one, and no more than `n` tokens are left, the parser reports
something, or it succeeds and takes at least `k` tokens, which lead from `a` open parentheses to `b`. -/
def Tidy (front : Option Token) (n a b k : Nat) (p : Parser α) : Prop := ∀ i s, s.Shows front → s.rest.length ≤ n →
  (p i s).2.errors = s.errors → (p i s).1.isSome ∧ Took a b k s (p i s).2

namespace Tidy

theorem pure (x : α) : Tidy front n a a 0 (pure x : Parser α) := fun _ _ _ _ _ => ⟨rfl, .refl⟩

theorem mono (h : Tidy front n a b k p) (hk : k' ≤ k) : Tidy front n a b k' p := by
  intro i s hfront hn hsilent
  obtain ⟨hsome, htook⟩ := h i s hfront hn hsilent
  exact ⟨hsome, htook.mono hk⟩

/-- What the first parser takes is not left for the second. If neither adds an error, both are silent. -/
theorem bind (hp : Tidy front n a b k p) (hf : ∀ x m, m + k ≤ n → Tidy none m b c k' (f x))
    (hsteady : Assembled True p) (hsteady' : ∀ x, Assembled True (f x)) : Tidy front n a c (k + k') (p >>= f) := by
  intro i s hfront hn hsilent
  have hle := (hsteady.logged i s).errors_le
  have htook := hp i s hfront hn
  rw [bind_apply] at hsilent ⊢
  rcases hrun : p i s with ⟨_ | x, s'⟩ <;> rw [hrun] at hsilent hle htook
  · exact absurd (htook hsilent).1 Bool.false_ne_true
  · have hle' := ((hsteady' x).logged i s').errors_le
    dsimp only at hsilent hle htook
    obtain ⟨-, htook⟩ := htook (by omega)
    have hlength := htook.length_le
    obtain ⟨hsome, htook'⟩ := hf x s'.rest.length (by omega) i s' s'.shows_none (Nat.le_refl _) (by omega)
    exact ⟨hsome, htook.trans htook'⟩

/-- The same where it is of no matter how much is taken. -/
theorem andThen (hp : Tidy front n a b k p) (hf : ∀ x m, m + k ≤ n → Tidy none m b c 0 (f x))
    (hsteady : Assembled True p) (hsteady' : ∀ x, Assembled True (f x)) : Tidy front n a c 0 (p >>= f) :=
  (hp.bind hf hsteady hsteady').mono (Nat.zero_le _)

/-- A parser that takes nothing and adds no error. -/
theorem idle (hp : ∀ i s, (p i s).1.isSome ∧ (p i s).2.rest = s.rest) : Tidy front n a a 0 p :=
  fun i s _ _ _ => ⟨(hp i s).1, .of_rest (hp i s).2⟩

theorem look (hp : Looks p) (hf : ∀ x, Tidy front n a b k (f x)) : Tidy front n a b k (p >>= f) := by
  intro i s
  obtain ⟨x, hx⟩ := hp.bind_eq i s
  rw [hx]
  exact hf x i s

/-- Where something is reported, nothing is to be shown. -/
theorem reports {r : Parser Unit} {f : Unit → Parser β} (hr : Reports r) (hf : Assembled True (f ())) :
    Tidy front n a b k (r >>= f) := by
  obtain ⟨g, problem, rfl⟩ := hr
  intro i s _ _ hsilent
  have hle := (hf.logged i (reportAt (g s) problem i s).2).errors_le
  exact absurd hsilent (Nat.ne_of_gt hle)

theorem eat (hkind : kind ∉ [Token.Kind.lparen, .rparen, .eof]) : Tidy front n a a 0 (eat kind) := by
  intro i s _ _ _
  unfold Parser.eat
  split
  · rename_i hpeek
    exact ⟨rfl, (Took.advance (.plain (hpeek ▸ hkind))).mono (Nat.zero_le 1)⟩
  · exact ⟨rfl, .refl⟩

theorem expect {problem : Problem} (hkind : Turns kind a b) : Tidy front n a b 1 (expect kind problem) := by
  intro i s _ _ hsilent
  by_cases hpeek : s.peek.kind = kind
  · rw [expect_of_kind hpeek]
    exact ⟨rfl, .advance (hpeek ▸ hkind)⟩
  · rw [expect_of_ne hpeek] at hsilent
    exact absurd hsilent (Nat.succ_ne_self s.errors)

/-- The end of a statement is there, and takes nothing but a semicolon, or its lack is reported. -/
theorem endStatement_cases (i : Input) (s : State) :
    (∃ s', endStatement i s = (some true, s') ∧ s'.errors = s.errors ∧ Took a a 0 s s') ∨
      ∃ s', endStatement i s = (some false, s') ∧ s'.errors = s.errors + 1 := by
  unfold endStatement
  rw [bind_apply]
  by_cases hsemicolon : s.peek.kind = .semicolon
  · refine .inl ⟨s.advance, by rw [Parser.eat, if_pos hsemicolon]; rfl, errors_advance s, ?_⟩
    exact (Took.advance (.plain (by simp [hsemicolon]))).mono (Nat.zero_le 1)
  rw [Parser.eat, if_neg hsemicolon]
  simp only [Bool.false_eq_true, if_false, bind_apply, isAtAny]
  split
  · exact .inl ⟨s, rfl, rfl, .refl⟩
  simp only [bind_apply, newlineBefore]
  split
  · exact .inl ⟨s, rfl, rfl, .refl⟩
  · exact .inr ⟨_, rfl, rfl⟩

theorem ended {f : Bool → Parser β} (htrue : ∀ m ≤ n, Tidy none m a b 0 (f true))
    (hsteady : ∀ x, Assembled True (f x)) :
    Tidy front n a b 0 (endStatement >>= f) := by
  intro i s _ hn hsilent
  rw [bind_apply] at hsilent ⊢
  rcases endStatement_cases (a := a) i s with ⟨s', hrun, herrors, htook⟩ | ⟨s', hrun, herrors⟩ <;>
    rw [hrun] at hsilent ⊢
  · have hlength := htook.length_le
    dsimp only at hsilent ⊢
    obtain ⟨hsome, htook'⟩ := htrue s'.rest.length (by omega) i s' s'.shows_none (Nat.le_refl _) (by omega)
    exact ⟨hsome, (htook.trans htook').mono (Nat.zero_le _)⟩
  · have hle := ((hsteady false).logged i s').errors_le
    dsimp only at hsilent
    omega

/-! ### Lists -/

/-- Items take tokens, so there are no more of them than tokens. The induction is on the fuel. -/
theorem items {close : Token.Kind} {separator : Parser Bool} {item : Parser α} {fuel : Nat}
    (hsep : ∀ m ≤ n, Tidy none m a a 0 separator) (hitem : ∀ m ≤ n, Tidy none m a a 1 item) (hfuel : n < fuel)
    (hsteady : Assembled True separator) (hsteady' : Assembled True item) :
    Tidy none n a a 0 (items close separator item fuel) := by
  induction fuel generalizing n with
  | zero => exact absurd hfuel (Nat.not_lt_zero n)
  | succ fuel ih =>
    have hmore (m : Nat) (hm : m + 1 ≤ n) : Tidy none m a a 0 (Parser.items close separator item fuel) :=
      ih (fun j hj => hsep j (by omega)) (fun j hj => hitem j (by omega)) (by omega)
    have hsteadyMore (x : α) : Assembled True (do return x :: (← Parser.items close separator item fuel)) :=
      (Assembled.items hsteady hsteady' fuel).bind fun _ => .pure _
    rw [Parser.items]
    refine look (looks_isAt close) fun b => ?_
    split
    · exact .pure _
    refine (hitem n (Nat.le_refl n)).andThen (fun x m hm => ?_) hsteady' fun x => ?_
    · refine (hsep m (by omega)).andThen (fun more m' hm' => ?_) hsteady fun more => .ite (hsteadyMore x) (.pure _)
      split
      · exact (hmore m' (by omega)).andThen (fun xs _ _ => .pure _) (.items hsteady hsteady' fuel) fun xs => .pure _
      · exact .pure _
    · exact hsteady.bind fun more => .ite (hsteadyMore x) (.pure _)

/-- A parser that fails reports something, so it is of no matter what follows then. -/
theorem attempt {f : Option α → Parser β} (hp : Tidy front n a b 1 p)
    (hsome : ∀ x m, m + 1 ≤ n → Tidy none m b c 0 (f (some x))) (hsteady : Assembled True p)
    (hsteady' : ∀ r, Assembled True (f r)) : Tidy front n a c 0 (attempt p >>= f) := by
  intro i s hfront hn hsilent
  have hrun : (Parser.attempt p >>= f) i s = f (p i s).1 i (p i s).2 := rfl
  rw [hrun] at hsilent ⊢
  have hle := (hsteady.logged i s).errors_le
  have hle' := ((hsteady' (p i s).1).logged i (p i s).2).errors_le
  obtain ⟨hsucceeds, htook⟩ := hp i s hfront hn (by omega)
  have hlength := htook.length_le
  obtain ⟨x, hx⟩ := Option.isSome_iff_exists.1 hsucceeds
  rw [hx] at hsilent hle' ⊢
  have hnext := hsome x (p i s).2.rest.length (by omega) i (p i s).2 (State.shows_none _) (Nat.le_refl _)
  obtain ⟨hsucceeds', htook'⟩ := hnext (by omega)
  exact ⟨hsucceeds', (htook.trans htook').mono (Nat.zero_le _)⟩

/-- The induction is on the fuel. -/
theorem statements {stops : List Token.Kind} {stmt : Parser Nat} (hstmt : ∀ m ≤ n, Tidy none m a a 1 stmt)
    (hsteady : Assembled True stmt) (fuel : Nat) : Tidy none n a a 0 (statements stops stmt fuel) := by
  induction fuel generalizing n with
  | zero => exact .pure _
  | succ fuel ih =>
    have hsteadyMore : Assembled True (Parser.statements stops stmt fuel) := .statements hsteady fuel
    rw [Parser.statements]
    refine look (looks_isAtAny stops) fun stop => ?_
    refine (idle fun _ _ => ⟨rfl, rfl⟩).andThen (fun enough m hm => ?_) .enough fun enough => ?_
    · split
      · exact .pure _
      refine look looks_get fun s => (hstmt m hm).attempt (fun id m' hm' => ?_) hsteady fun r => ?_
      · exact (ih fun j hj => hstmt j (by omega)).andThen (fun ids _ _ => .pure _) hsteadyMore fun ids => .pure _
      · cases r with
        | some id => exact hsteadyMore.bind fun _ => .pure _
        | none => exact (Assembled.resync _).bind fun _ => hsteadyMore
    · refine .ite (.pure _) (looks_get.assembled.bind fun s => hsteady.attempt.bind fun r => ?_)
      cases r with
      | some id => exact hsteadyMore.bind fun _ => .pure _
      | none => exact (Assembled.resync _).bind fun _ => hsteadyMore

end Tidy

/-! ### The grammar -/

/-- What follows the rules is tidy. The induction is on the rules. -/
theorem Does.tidy {α : Type} {A : Prop} {n a b k : Nat} {front : Option Token} {ins : List Piece} {p q : Parser α}
    {outs : α → List Piece} (h : Does (fun _ => True) A n a b k front ins p q outs) (hA : A) :
    Tidy front n a b k p := by
  induction h with
  | never h => exact absurd hA h
  | pure => exact .pure _
  | reject hr => exact .reports hr .fail
  | warn hr h => exact .reports hr h.assembled
  | bind hp hf ihp ihf =>
    exact (ihp hA).bind (fun x m hm => ihf x m ⟨hA, hm⟩) hp.assembled fun x => (hf x 0).assembled
  | weaken _ hA' hk _ ih => exact (ih (hA' hA)).mono hk
  | look hp _ ihf => exact .look hp fun x => ihf x hA
  | peek _ ihf => exact fun i s _ => ihf s.peek (fun _ => trivial) hA i s s.shows_peek
  | anywhere _ ih => exact fun i s _ => ih hA i s s.shows_none
  | advance hkind => exact fun i s hfront _ _ => ⟨rfl, .advance (hfront.eq ▸ hkind)⟩
  | expect hkind hf ihf =>
    refine (Tidy.expect hkind).bind (fun tok m hm => ihf tok m (fun _ => trivial) ⟨hA, hm⟩) (.expect _ _) fun tok =>
      ?_
    exact (hf tok 0 fun _ => trivial).assembled
  | eat hkind => exact .eat hkind
  | ended htrue hfalse ihtrue => exact .ended (fun m hm => ihtrue m ⟨hA, hm⟩) (.ended (htrue 0).assembled hfalse)
  | items hsep hitem hfuel ihsep ihitem =>
    exact .items (fun m hm => ihsep m ⟨hA, hm⟩) (fun m hm => ihitem m ⟨hA, hm⟩) (hfuel hA) (hsep 0).assembled
      (hitem 0).assembled
  | statements _ hstmt _ ihstmt => exact .statements (fun m hm => ihstmt m ⟨hA, hm⟩) (hstmt 0).assembled _
  | write _ h =>
    cases h with
    | leaf | member | fromToken | fromMark => exact .idle fun _ _ => ⟨rfl, rfl⟩
  | spanOf _ ihf => exact .look (looks_spanOf _) fun span => ihf span hA
  | mark _ ih | ofToken _ ih | relax _ _ ih => exact ih hA

end TypedScript.Ast.Parser
