import TypedScript.Ast.Parser.Grammar
import TypedScript.Proofs.Ast.Forest

/-!
# What the parsers of the grammar do

Every parser of the grammar is put together from a few primitives: it looks, takes tokens, writes nodes and
reports problems. `Does` says in rules what a parser needs, takes, uses and writes. That the parsers of the
grammar follow the rules is shown once, by an induction on the depth of their recursion; what holds of the rules
then holds of the grammar, whether it is about the number of tokens, parentheses, spans, parts or names.

* `Assembled`: parsers that are put together from the primitives, whatever they are for.
* `Does`: the rules.
* `typesDo`, `stmtsDo`: the parsers of the grammar follow them.
* `parse_congr`: a file is parsed by its number and its content; what it is called makes no difference.
-/

namespace TypedScript.Ast.Parser

open TypedScript.Source

variable {α β : Type}

/-- The parser only looks. -/
def Looks (p : Parser α) : Prop := ∃ g : List UInt8 → State → α, p = fun i s => (some (g i.file.content s), s)

/-- The parser reports a problem at a place that it finds. -/
def Reports (p : Parser Unit) : Prop :=
  ∃ (g : State → Span) (problem : Problem), p = fun i s => reportAt (g s) problem i s

theorem looks_get : Looks get := ⟨fun _ s => s, rfl⟩

theorem looks_peek : Looks peek := ⟨fun _ s => s.peek, rfl⟩

theorem looks_isAt (k : Token.Kind) : Looks (isAt k) := ⟨fun _ s => decide (s.peek.kind = k), rfl⟩

theorem looks_isAtAny (ks : List Token.Kind) : Looks (isAtAny ks) := ⟨fun _ s => ks.contains s.peek.kind, rfl⟩

theorem looks_lastSpan : Looks lastSpan := ⟨fun _ s => s.last, rfl⟩

theorem looks_spanOf (id : Nat) : Looks (spanOf id) :=
  ⟨fun _ s => (s.node? id).elim ({} : Span) fun n => n.span, rfl⟩

theorem looks_formOf (id : Nat) : Looks (formOf id) := ⟨fun _ s => (s.node? id).map (·.form), rfl⟩

theorem looks_newlineBefore : Looks newlineBefore :=
  ⟨fun content s => s.peek.span.start ≤ content.length && s.last.stop ≤ s.peek.span.start &&
    ((content.drop s.last.stop).take (s.peek.span.start - s.last.stop)).contains lineFeed, rfl⟩

theorem looks_isArrowAhead : Looks isArrowAhead := ⟨fun _ s => closesBeforeArrow 0 (s.rest.map Token.kind), rfl⟩

theorem reports_report (problem : Problem) : Reports (report problem) := ⟨fun s => s.peek.span, problem, rfl⟩

theorem reports_reportAt (span : Span) (problem : Problem) : Reports (reportAt span problem) :=
  ⟨fun _ => span, problem, rfl⟩

theorem bind_apply (p : Parser α) (f : α → Parser β) (i : Input) (s : State) :
    (p >>= f) i s = match p i s with
      | (some a, s') => f a i s'
      | (none, s') => (none, s') := rfl

/-- What follows a look runs in the same state. -/
theorem Looks.bind_eq {p : Parser α} (h : Looks p) (i : Input) (s : State) :
    ∃ x, ∀ {β : Type} (f : α → Parser β), (p >>= f) i s = f x i s := by
  obtain ⟨g, rfl⟩ := h
  exact ⟨g i.file.content s, fun f => rfl⟩

/-- The token is at the front, if there is one. -/
def State.Shows (s : State) (front : Option Token) : Prop := ∀ tok ∈ front, s.peek = tok

theorem State.shows_none (s : State) : s.Shows none := by
  intro tok htok
  cases htok

theorem State.shows_peek (s : State) : s.Shows (some s.peek) := fun _ htok => Option.some.inj htok

theorem State.Shows.eq {s : State} {tok : Token} (h : s.Shows (some tok)) : s.peek = tok := h tok rfl

theorem expect_of_kind {kind : Token.Kind} {problem : Problem} {i : Input} {s : State} (h : s.peek.kind = kind) :
    expect kind problem i s = (some s.peek, s.advance) := by
  simp [expect, bind_apply, isAt, h, Parser.advance]

theorem expect_of_ne {kind : Token.Kind} {problem : Problem} {i : Input} {s : State} (h : s.peek.kind ≠ kind) :
    expect kind problem i s = (none, (report problem i s).2) := by
  simp [expect, bind_apply, isAt, h]
  rfl

/-! ### Primitives -/

/-- The parser is put together from the primitives, and writes nodes only if that is allowed. -/
inductive Assembled (writes : Prop) : {α : Type} → Parser α → Prop
  | pure {α : Type} (a : α) : Assembled writes (pure a : Parser α)
  | fail {α : Type} : Assembled writes (fail : Parser α)
  | bind {α β : Type} {p : Parser α} {f : α → Parser β} :
    Assembled writes p → (∀ a, Assembled writes (f a)) → Assembled writes (p >>= f)
  | attempt {α : Type} {p : Parser α} : Assembled writes p → Assembled writes (attempt p)
  | look {α : Type} (g : List UInt8 → State → α) : Assembled writes fun i s => (some (g i.file.content s), s)
  | enough : Assembled writes enough
  | advance : Assembled writes advance
  | eat (k : Token.Kind) : Assembled writes (eat k)
  | write (h : writes) (form : Form) (span : Span) : Assembled writes (write form span)
  | reportAt (span : Span) (problem : Problem) : Assembled writes (reportAt span problem)

variable {writes : Prop}

theorem Looks.assembled {p : Parser α} (h : Looks p) : Assembled writes p := by
  obtain ⟨g, rfl⟩ := h
  exact .look g

theorem Reports.assembled {p : Parser Unit} (h : Reports p) : Assembled writes p := by
  obtain ⟨g, problem, rfl⟩ := h
  exact .bind (.look fun _ s => g s) fun span => .reportAt span problem

namespace Assembled

theorem ite {c : Prop} [Decidable c] {p q : Parser α} (hp : Assembled writes p) (hq : Assembled writes q) :
    Assembled writes (if c then p else q) := by
  split
  · exact hp
  · exact hq

theorem expect (k : Token.Kind) (problem : Problem) : Assembled writes (expect k problem) :=
  (looks_isAt k).assembled.bind fun _ => .ite .advance ((reports_report problem).assembled.bind fun _ => .fail)

theorem endStatement : Assembled writes endStatement := by
  refine .bind (.eat _) fun _ => .ite (.pure _) ?_
  refine (looks_isAtAny _).assembled.bind fun _ => .ite (.pure _) ?_
  refine looks_newlineBefore.assembled.bind fun _ => .ite (.pure _) ?_
  exact (reports_report _).assembled.bind fun _ => .pure _

theorem skipToBoundary (fuel : Nat) : Assembled writes (skipToBoundary fuel) := by
  induction fuel with
  | zero => exact .pure _
  | succ fuel ih =>
    refine (looks_isAt _).assembled.bind fun _ => .ite (.pure _) <| .bind (.eat _) fun _ => .ite (.pure _) ?_
    exact (looks_isAtAny _).assembled.bind fun _ => .ite (.pure _) <| .bind .advance fun _ => ih

theorem resync (before : Nat) : Assembled writes (resync before) := by
  have hskip : Assembled writes (do Parser.skipToBoundary (← Parser.get).rest.length) :=
    looks_get.assembled.bind fun _ => skipToBoundary _
  exact looks_get.assembled.bind fun _ => .ite (.bind .advance fun _ => hskip) hskip

theorem items {close : Token.Kind} {separator : Parser Bool} {item : Parser α} (hsep : Assembled writes separator)
    (hitem : Assembled writes item) (fuel : Nat) : Assembled writes (items close separator item fuel) := by
  induction fuel with
  | zero => exact .fail
  | succ fuel ih =>
    refine (looks_isAt _).assembled.bind fun _ => .ite (.pure _) <| hitem.bind fun _ => hsep.bind fun _ => ?_
    exact .ite (ih.bind fun _ => .pure _) (.pure _)

theorem statements {stops : List Token.Kind} {stmt : Parser Nat} (hstmt : Assembled writes stmt) (fuel : Nat) :
    Assembled writes (statements stops stmt fuel) := by
  induction fuel with
  | zero => exact .pure _
  | succ fuel ih =>
    refine (looks_isAtAny _).assembled.bind fun _ => .bind .enough fun _ => .ite (.pure _) ?_
    refine looks_get.assembled.bind fun _ => hstmt.attempt.bind fun r => ?_
    cases r with
    | some id => exact ih.bind fun _ => .pure _
    | none => exact (resync _).bind fun _ => ih

end Assembled

/-! ### Rules -/

/-- What a parser has come across and not yet used: a place that it looked at, a token that it took, or a node
that it wrote, with the place that the node can take in another. -/
inductive Piece where
  | mark (span : Span)
  | token (span : Span)
  | node (place : Place) (id : Nat)

/-- The parts of a form, in source order. -/
def pieces (form : Form) : List Piece := form.parts.map fun part => .node part.1 part.2

/-- A token leads from `a` open parentheses to `b`. -/
inductive Turns : Token.Kind → Nat → Nat → Prop
  | plain {kind : Token.Kind} {a : Nat} (h : kind ∉ [Token.Kind.lparen, .rparen, .eof]) : Turns kind a a
  | opened {kind : Token.Kind} {a : Nat} (h : kind = .lparen) : Turns kind a (a + 1)
  | closed {kind : Token.Kind} {a : Nat} (h : kind = .rparen) : Turns kind (a + 1) a

theorem Turns.ne_eof {kind : Token.Kind} {a b : Nat} (h : Turns kind a b) : kind ≠ .eof := by
  cases h with
  | plain h =>
    rintro rfl
    exact absurd h (by decide)
  | opened h | closed h =>
    rw [h]
    decide

/-- A node is written that spans the pieces. -/
inductive Writes : List Piece → Form → Parser Nat → Prop
  /-- In place of a token. -/
  | leaf {form : Form} {span : Span} (h : form.parts = []) : Writes [.token span] form (write form span)
  /-- From a token on. -/
  | fromToken {form : Form} {span : Span} : Writes (.token span :: pieces form) form (writeFrom form span)
  /-- From the place on where its first part starts, or a token before it. -/
  | fromMark {form : Form} {span : Span} (hne : form.parts ≠ []) (hform : form.declares = false) :
    Writes (.mark span :: pieces form) form (writeFrom form span)
  /-- From the base of a member access through the name. -/
  | member {x : Nat} {name : String} {span last : Span} : Writes [.mark span, .node .expression x, .token last]
    (.member x name) (write (.member x name) (span.cover last))

/-- What a parser does, and that another does the same, where no more than `n` tokens are left and `A` holds: it
takes at least `k` tokens if it succeeds, which lead from `a` open parentheses to `b` if it reports nothing. It is
run with the given token at the front, if there is one. It uses the pieces `ins`, and holds `outs` when it
succeeds. The names that it writes are texts of identifiers that have the property `P`, or have it in themselves.
-/
inductive Does (P : String → Prop) : {α : Type} → Prop → Nat → Nat → Nat → Nat → Option Token → List Piece →
    Parser α → Parser α → (α → List Piece) → Prop
  | pure {α : Type} {A : Prop} {n a : Nat} {ins : List Piece} {outs : α → List Piece} {x : α} (h : outs x = ins) :
    Does P A n a a 0 none ins (pure x) (pure x) outs
  /-- It never gets there. -/
  | never {α : Type} {A : Prop} {n a b k : Nat} {front : Option Token} {ins : List Piece} {p q : Parser α}
    {outs : α → List Piece} (h : ¬A) (hp : p = fail) : Does P A n a b k front ins p q outs
  /-- It gives up. -/
  | reject {α : Type} {A : Prop} {n a b k : Nat} {front : Option Token} {ins : List Piece} {r : Parser Unit}
    {outs : α → List Piece} (hr : Reports r) :
    Does P A n a b k front ins (r >>= fun _ => fail) (r >>= fun _ => fail) outs
  /-- It reports something and goes on. -/
  | warn {α : Type} {A : Prop} {n a b k : Nat} {ins : List Piece} {r : Parser Unit} {f g : Unit → Parser α}
    {outs : α → List Piece} (hr : Reports r) (h : Does P A n a b k none ins (f ()) (g ()) outs) :
    Does P A n a b k none ins (r >>= f) (r >>= g) outs
  | bind {α β : Type} {A : Prop} {n a b c k l : Nat} {front : Option Token} {rest used : List Piece}
      {p q : Parser α}
    {f g : α → Parser β} {outs : α → List Piece} {outs' : β → List Piece}
    (hp : Does P A n a b k front used p q outs)
    (hf : ∀ x m, Does P (A ∧ m + k ≤ n) m b c l none (rest ++ outs x) (f x) (g x) outs') :
    Does P A n a c (k + l) front (rest ++ used) (p >>= f) (q >>= g) outs'
  /-- Less may be told, and less used. -/
  | weaken {α : Type} {A A' : Prop} {n a b k k' : Nat} {front : Option Token} {ins ins' : List Piece}
      {p q : Parser α}
    {outs : α → List Piece} (h : Does P A n a b k front ins p q outs) (hA : A' → A) (hk : k' ≤ k)
    (hins : ins.Sublist ins') : Does P A' n a b k' front ins' p q outs
  | look {α β : Type} {A : Prop} {n a b k : Nat} {front : Option Token} {ins : List Piece} {p : Parser α}
    {f g : α → Parser β} {outs : β → List Piece} (hp : Looks p)
    (hf : ∀ x, Does P A n a b k front ins (f x) (g x) outs) : Does P A n a b k front ins (p >>= f) (p >>= g) outs
  /-- The token at the front is looked at. -/
  | peek {α : Type} {A : Prop} {n a b k : Nat} {ins : List Piece} {f g : Token → Parser α} {outs : α → List Piece}
    (hf : ∀ tok : Token, (tok.kind = .ident → P tok.text) → Does P A n a b k (some tok) ins (f tok) (g tok) outs) :
    Does P A n a b k none ins (peek >>= f) (peek >>= g) outs
  /-- It is of no matter what is at the front. -/
  | anywhere {α : Type} {A : Prop} {n a b k : Nat} {tok : Token} {ins : List Piece} {p q : Parser α}
    {outs : α → List Piece} (h : Does P A n a b k none ins p q outs) : Does P A n a b k (some tok) ins p q outs
  | advance {A : Prop} {n a b : Nat} {tok : Token} (hkind : Turns tok.kind a b) :
    Does P A n a b 1 (some tok) [] advance advance fun _ => [.token tok.span]
  | expect {α : Type} {A : Prop} {n a b c k : Nat} {kind : Token.Kind} {problem : Problem} {ins : List Piece}
    {f g : Token → Parser α} {outs : α → List Piece} (hkind : Turns kind a b)
    (hf : ∀ (tok : Token) m, (kind = .ident → P tok.text) →
      Does P (A ∧ m + 1 ≤ n) m b c k none (ins ++ [.token tok.span]) (f tok) (g tok) outs) :
    Does P A n a c (1 + k) none ins (expect kind problem >>= f) (expect kind problem >>= g) outs
  | eat {A : Prop} {n a : Nat} {kind : Token.Kind} (hkind : kind ∉ [Token.Kind.lparen, .rparen, .eof]) :
    Does P A n a a 0 none [] (eat kind) (eat kind) fun _ => []
  /-- The end of a statement; a parser that goes on where it is missing goes on alike. -/
  | ended {α : Type} {A : Prop} {n a b : Nat} {ins : List Piece} {f g : Bool → Parser α} {outs : α → List Piece}
    (htrue : ∀ m, Does P (A ∧ m ≤ n) m a b 0 none ins (f true) (g true) outs)
    (hfalse : f false = f true ∧ g false = g true ∨ f false = fail ∧ g false = fail) :
    Does P A n a b 0 none ins (endStatement >>= f) (endStatement >>= g) outs
  /-- Items take tokens, so there are no more of them than tokens. -/
  | items {A : Prop} {n a fuel : Nat} {close : Token.Kind} {separator : Parser Bool} {item item' : Parser Nat}
    {place : Place} (hsep : ∀ m, Does P (A ∧ m ≤ n) m a a 0 none [] separator separator fun _ => [])
    (hitem : ∀ m, Does P (A ∧ m ≤ n) m a a 1 none [] item item' fun id => [.node place id]) (hfuel : A → n < fuel) :
    Does P A n a a 0 none [] (items close separator item fuel) (items close separator item' (fuel + 1))
      fun ids => ids.map (.node place)
  | statements {A : Prop} {n a fuel : Nat} {stops : List Token.Kind} {stmt stmt' : Parser Nat} {place : Place}
    (hstops : .eof ∈ stops) (hstmt : ∀ m, Does P (A ∧ m ≤ n) m a a 1 none [] stmt stmt' fun id => [.node place id])
    (hfuel : A → n < fuel) :
    Does P A n a a 0 none [] (statements stops stmt fuel) (statements stops stmt' (fuel + 1))
      fun ids => ids.map (.node place)
  | write {A : Prop} {n a : Nat} {ins : List Piece} {form : Form} {p : Parser Nat} (place : Place)
    (h : Writes ins form p) (hname : P form.name) (hplace : place.admits form = true) :
    Does P A n a a 0 none ins p p fun id => [.node place id]
  /-- The place at the front is held. -/
  | mark {α : Type} {A : Prop} {n a b k : Nat} {tok : Token} {ins : List Piece} {p q : Parser α}
      {outs : α → List Piece}
    (h : Does P A n a b k (some tok) (ins ++ [.mark tok.span]) p q outs) : Does P A n a b k (some tok) ins p q outs
  /-- The place where a token starts is held. -/
  | ofToken {α : Type} {A : Prop} {n a b k : Nat} {front : Option Token} {ins : List Piece} {span : Span}
    {p q : Parser α} {outs : α → List Piece}
    (h : Does P A n a b k front (.mark span :: .token span :: ins) p q outs) :
    Does P A n a b k front (.token span :: ins) p q outs
  /-- The place where a node starts is held. -/
  | spanOf {α : Type} {A : Prop} {n a b k : Nat} {ins : List Piece} {place : Place} {x : Nat}
      {f g : Span → Parser α}
    {outs : α → List Piece}
    (hf : ∀ span, Does P A n a b k none (.mark span :: .node place x :: ins) (f span) (g span) outs) :
    Does P A n a b k none (.node place x :: ins) (spanOf x >>= f) (spanOf x >>= g) outs
  /-- A statement or an expression can stand wherever any node can. -/
  | relax {A : Prop} {n a b k : Nat} {front : Option Token} {ins : List Piece} {place : Place} {p q : Parser Nat}
    (h : Does P A n a b k front ins p q fun id => [.node place id])
    (hplace : place = .statement ∨ place = .expression) :
    Does P A n a b k front ins p q fun id => [.node .node id]

namespace Does

variable {P : String → Prop} {A A' : Prop} {n a b c k k' : Nat} {front : Option Token} {ins : List Piece}
  {p q : Parser α} {f g : α → Parser β} {outs : α → List Piece} {outs' : β → List Piece}
  {kind : Token.Kind} {tok : Token}

theorem when (h : Does P A n a b k front ins p q outs) (hA : A' → A) : Does P A' n a b k front ins p q outs :=
  h.weaken hA (Nat.le_refl k) (List.Sublist.refl ins)

theorem less (h : Does P A n a b k front ins p q outs) (hk : k' ≤ k) : Does P A n a b k' front ins p q outs :=
  h.weaken id hk (List.Sublist.refl ins)

/-- After a parser of which it is of no matter how much it takes. What the second needs of what is held is kept. -/
theorem andThen (hp : Does P A n a b 0 front [] p q outs)
    (hf : ∀ x m, Does P (A ∧ m ≤ n) m b c k none (ins ++ outs x) (f x) (g x) outs') :
    Does P A n a c k front ins (p >>= f) (q >>= g) outs' := by
  have h := hp.bind hf
  rwa [List.append_nil, Nat.zero_add] at h

/-- The first parser takes a token, after which there is one less, and the second has one less to take. -/
theorem taking (hp : Does P A n a b 1 front [] p q outs)
    (hf : ∀ x m, Does P (A ∧ m + 1 ≤ n) m b c (k - 1) none (ins ++ outs x) (f x) (g x) outs') :
    Does P A n a c k front ins (p >>= f) (q >>= g) outs' := by
  have h := hp.bind hf
  rw [List.append_nil] at h
  exact h.less (by omega)

/-- The first parser uses some of what is held. -/
theorem spending {used : List Piece} (rest : List Piece) (hp : Does P A n a b 0 front used p q outs)
    (hf : ∀ x m, Does P (A ∧ m ≤ n) m b c k none (rest ++ outs x) (f x) (g x) outs') :
    Does P A n a c k front (rest ++ used) (p >>= f) (q >>= g) outs' := by
  have h := hp.bind hf
  rwa [Nat.zero_add] at h

theorem map {h : α → β} (hp : Does P A n a b k front ins p q fun x => outs' (h x)) :
    Does P A n a b k front ins (h <$> p) (h <$> q) outs' := by
  have hbind : Does P A n a b (k + 0) front ([] ++ ins) (p >>= fun x => Pure.pure (h x))
    (q >>= fun x => Pure.pure (h x))
      outs' := .bind hp fun x m => .pure rfl
  exact hbind

theorem peekKind {f g : Token.Kind → Parser β}
    (hf : ∀ tok : Token, Does P A n a b k (some tok) ins (f tok.kind) (g tok.kind) outs') :
    Does P A n a b k none ins (Parser.peekKind >>= f) (Parser.peekKind >>= g) outs' :=
  Does.peek (f := fun tok => f tok.kind) (g := fun tok => g tok.kind) fun tok _ => hf tok

theorem isAt {f g : Bool → Parser β}
    (htrue : ∀ tok : Token, tok.kind = kind → Does P A n a b k (some tok) ins (f true) (g true) outs')
    (hfalse : Does P A n a b k none ins (f false) (g false) outs') :
    Does P A n a b k none ins (Parser.isAt kind >>= f) (Parser.isAt kind >>= g) outs' := by
  refine Does.peek (f := fun tok => f (decide (tok.kind = kind))) (g := fun tok => g (decide (tok.kind = kind))) ?_
  intro tok _
  by_cases hkind : tok.kind = kind
  · rw [decide_eq_true hkind]
    exact htrue tok hkind
  · rw [decide_eq_false hkind]
    exact hfalse.anywhere

/-- The token at the front is taken and held. -/
theorem advanced {f g : Token → Parser β} (hkind : Turns tok.kind a b)
    (hf : ∀ t m, Does P (A ∧ m + 1 ≤ n) m b c (k - 1) none (ins ++ [.token tok.span]) (f t) (g t) outs') :
    Does P A n a c k (some tok) ins (Parser.advance >>= f) (Parser.advance >>= g) outs' :=
  (Does.advance hkind).taking hf

/-- The token at the front is taken, and nothing needs it. -/
theorem passed {f g : Token → Parser β} (hkind : Turns tok.kind a b)
    (hf : ∀ t m, Does P (A ∧ m + 1 ≤ n) m b c (k - 1) none ins (f t) (g t) outs') :
    Does P A n a c k (some tok) ins (Parser.advance >>= f) (Parser.advance >>= g) outs' :=
  advanced hkind fun t m => (hf t m).weaken id (Nat.le_refl _) (List.sublist_append_left ins _)

/-- A token that is there is taken and held. -/
theorem expected {problem : Problem} {f g : Token → Parser β} (hkind : Turns kind a b)
    (hf : ∀ (tok : Token) m, (kind = .ident → P tok.text) →
      Does P (A ∧ m + 1 ≤ n) m b c (k - 1) none (ins ++ [.token tok.span]) (f tok) (g tok) outs') :
    Does P A n a c k none ins (Parser.expect kind problem >>= f) (Parser.expect kind problem >>= g) outs' :=
  (Does.expect hkind hf).less (by omega)

/-- A token that is there is taken, and nothing needs its place. -/
theorem skipped {problem : Problem} {f g : Token → Parser β} (hkind : Turns kind a b)
    (hf : ∀ (tok : Token) m, (kind = .ident → P tok.text) →
      Does P (A ∧ m + 1 ≤ n) m b c (k - 1) none ins (f tok) (g tok) outs') :
    Does P A n a c k none ins (Parser.expect kind problem >>= f) (Parser.expect kind problem >>= g) outs' :=
  expected hkind fun tok m h => (hf tok m h).weaken id (Nat.le_refl _) (List.sublist_append_left ins _)

theorem fromToken {form : Form} {span : Span} (place : Place) (hname : P form.name)
    (hplace : place.admits form = true)
    (hins : ins = .token span :: pieces form) :
    Does P A n a a 0 none ins (writeFrom form span) (writeFrom form span) fun id => [.node place id] := by
  subst hins
  exact .write place .fromToken hname hplace

theorem fromMark {form : Form} {span : Span} (place : Place) (hname : P form.name)
    (hplace : place.admits form = true) (hform : form.declares = false)
    (hne : form.parts ≠ []) (hins : ins = .mark span :: pieces form) :
    Does P A n a a 0 none ins (writeFrom form span) (writeFrom form span) fun id => [.node place id] := by
  subst hins
  exact .write place (.fromMark hne hform) hname hplace

/-- A part that there may be, and is not. -/
theorem absent (place : Place) : Does P A n a a 0 none [] (Pure.pure none) (Pure.pure none)
    fun x : Option Nat => x.toList.map (.node place) := .pure rfl

/-- A part that there may be, and is. -/
theorem present {place : Place} {p q : Parser Nat} (hp : Does P A n a b k front [] p q fun id => [.node place id]) :
    Does P A n a b k front [] (some <$> p) (some <$> q) fun x => x.toList.map (.node place) :=
  hp.map

end Does

theorem Writes.assembled {form : Form} {ins : List Piece} {p : Parser Nat} (h : Writes ins form p) :
    Assembled True p := by
  cases h with
  | leaf | member => exact .write trivial _ _
  | fromToken | fromMark => exact looks_lastSpan.assembled.bind fun _ => .write trivial _ _

/-- How a parser goes on behind a statement. -/
theorem Assembled.ended {f g : Bool → Parser α} (htrue : Assembled writes (f true))
    (hfalse : f false = f true ∧ g false = g true ∨ f false = Parser.fail ∧ g false = Parser.fail) (ended : Bool) :
    Assembled writes (f ended) := by
  cases ended with
  | true => exact htrue
  | false =>
    rcases hfalse with ⟨hf, -⟩ | ⟨hf, -⟩ <;> rw [hf]
    · exact htrue
    · exact .fail

/-- What follows the rules is put together from the primitives. -/
theorem Does.assembled {α : Type} {A : Prop} {n a b k : Nat} {front : Option Token} {ins : List Piece}
    {p q : Parser α} {outs : α → List Piece} (h : Does (fun _ => True) A n a b k front ins p q outs) :
    Assembled True p := by
  induction h with
  | pure => exact .pure _
  | never _ hp =>
    rw [hp]
    exact .fail
  | reject hr => exact hr.assembled.bind fun _ => .fail
  | warn hr _ ih => exact hr.assembled.bind fun _ => ih
  | bind _ _ ihp ihf => exact ihp.bind fun x => ihf x 0
  | look hp _ ihf => exact hp.assembled.bind ihf
  | peek _ ihf => exact looks_peek.assembled.bind fun tok => ihf tok fun _ => trivial
  | advance => exact .advance
  | expect _ _ ihf => exact (Assembled.expect _ _).bind fun tok => ihf tok 0 fun _ => trivial
  | eat => exact .eat _
  | ended _ hfalse ihtrue => exact Assembled.endStatement.bind (Assembled.ended (ihtrue 0) hfalse)
  | items _ _ _ ihsep ihitem => exact .items (ihsep 0) (ihitem 0) _
  | statements _ _ _ ihstmt => exact .statements (ihstmt 0) _
  | write _ h => exact h.assembled
  | spanOf _ ihf => exact (looks_spanOf _).assembled.bind ihf
  | weaken _ _ _ _ ih | anywhere _ ih | mark _ ih | ofToken _ ih | relax _ _ ih => exact ih

/-! ### Types -/

section

attribute [local simp] pieces Form.parts Function.comp_def

/-- At the given depth of recursion the parser obeys the rules, where sixteen times the number of tokens that are
left and `c` more are within the depth, and one step deeper it does the same. -/
def Obeys (P : String → Prop) (depth c k : Nat) (ins : List Piece) (p : Nat → Parser α)
    (outs : α → List Piece) : Prop :=
  ∀ n a, Does P (16 * n + c ≤ depth) n a a k none ins (p depth) (p (depth + 1)) outs

theorem Obeys.does {P : String → Prop} {depth c k n a : Nat} {A : Prop} {ins : List Piece} {p : Nat → Parser α}
    {outs : α → List Piece} (h : Obeys P depth c k ins p outs) (hA : A → 16 * n + c ≤ depth) :
    Does P A n a a k none ins (p depth) (p (depth + 1)) outs :=
  (h n a).when hA

/-- What the parsers of types do. -/
structure TypesDo (P : String → Prop) (depth : Nat) : Prop where
  type : Obeys P depth 2 1 [] type fun id => [.node .type id]
  typeField : Obeys P depth 1 1 [] typeField fun id => [.node .field id]
  ascription : Obeys P depth 3 0 [] ascription? fun t => t.toList.map (.node .type)
  param : Obeys P depth 1 1 [] param fun id => [.node .param id]
  params : Obeys P depth 1 1 [] params fun ids => ids.map (.node .param)

/-- Parameters, without the parentheses. -/
theorem TypesDo.paramItems {P : String → Prop} {depth n a : Nat} (h : TypesDo P depth) :
    Does P (16 * n + 1 ≤ depth) n a a 0 none [] (items .rparen (eat .comma) (Parser.param depth) depth)
      (items .rparen (eat .comma) (Parser.param (depth + 1)) (depth + 1)) fun ids => ids.map (.node .param) :=
  .items (fun _ => .eat (by decide)) (fun _ => h.param.does (by omega)) (by omega)

section

variable {P : String → Prop} (hempty : P "") (hnull : P "null")
include hempty hnull

theorem typesDo (depth : Nat) : TypesDo P depth := by
  induction depth with
  | zero => constructor <;> intro n a <;> exact .never (by omega) rfl
  | succ depth ih =>
    constructor
    case type =>
      intro n a
      rw [Parser.type, Parser.type]
      refine .peek fun tok htok => ?_
      split
      · rename_i hkind
        exact .advanced (.plain (by simp [hkind])) fun _ m => .write .type (.leaf rfl) (htok hkind) rfl
      · rename_i hkind
        exact .advanced (.plain (by simp [hkind])) fun _ m => .write .type (.leaf rfl) hnull rfl
      · rename_i hkind
        refine .advanced (.plain (by simp [hkind])) fun _ m => ?_
        have hsep {A : Prop} {m : Nat} : Does P A m a a 0 none [] (do
            if ← eat .comma then return true
            eat .semicolon) (do
            if ← eat .comma then return true
            eat .semicolon) fun _ => [] := by
          refine (Does.eat (by decide)).andThen fun b m => ?_
          split
          · exact .pure rfl
          · exact .eat (by decide)
        refine (Does.items (fun _ => hsep) (fun _ => ih.typeField.does (by omega)) (by omega)).andThen
          fun fields m => ?_
        exact .skipped (.plain (by decide)) fun _ m _ => .fromToken .type hempty rfl (by simp)
      · refine .mark (.anywhere ((ih.params.does (by omega)).taking fun ps m => ?_))
        refine .skipped (.plain (by decide)) fun _ m _ => (ih.type.does (by omega)).taking fun result m => ?_
        exact .fromMark .type hempty rfl rfl (by simp) (by simp)
      · exact .reject (reports_report _)
    case typeField =>
      intro n a
      rw [Parser.typeField, Parser.typeField]
      refine .expected (.plain (by decide)) fun name m hname => .skipped (.plain (by decide)) fun _ m _ => ?_
      exact (ih.type.does (by omega)).taking fun t m => .fromToken .field (hname rfl) rfl (by simp)
    case ascription =>
      intro n a
      rw [Parser.ascription?, Parser.ascription?]
      refine (Does.eat (by decide)).andThen fun b m => ?_
      split
      · exact (ih.type.does (by omega)).taking fun t m => .pure rfl
      · exact .pure rfl
    case param =>
      intro n a
      rw [Parser.param, Parser.param]
      refine .expected (.plain (by decide)) fun name m hname => ?_
      exact (ih.ascription.does (by omega)).andThen fun t m => .fromToken .param (hname rfl) rfl (by simp)
    case params =>
      intro n a
      rw [Parser.params, Parser.params]
      refine .skipped (.opened rfl) fun _ m _ => (ih.paramItems.when (by omega)).andThen fun ps m => ?_
      exact .skipped (.closed rfl) fun _ m _ => .pure rfl

end

/-! ### Expressions and statements -/

/-- What the parsers of expressions and statements do. -/
structure StmtsDo (P : String → Prop) (depth : Nat) : Prop where
  expr : Obeys P depth 5 1 [] expr fun id => [.node .expression id]
  binary (power : Nat) : Obeys P depth 4 1 [] (binary · power) fun id => [.node .expression id]
  binaryRest (power lhs : Nat) :
    Obeys P depth 5 0 [.node .expression lhs] (binaryRest · power lhs) fun id => [.node .expression id]
  unary : Obeys P depth 3 1 [] unary fun id => [.node .expression id]
  postfixes (x : Nat) : Obeys P depth 6 0 [.node .expression x] (postfixes · x) fun id => [.node .expression id]
  primary : Obeys P depth 2 1 [] primary fun id => [.node .expression id]
  arrowRest (start : Span) (ps : List Nat) :
    Obeys P depth 4 0 (.mark start :: ps.map (.node .param)) (arrowRest · start ps) fun id => [.node .expression id]
  properties (seen : List String) : Obeys P depth 1 0 [] (properties · seen) fun ids => ids.map (.node .property)
  condition : Obeys P depth 1 1 [] condition fun id => [.node .expression id]
  block : Obeys P depth 1 1 [] block fun id => [.node .statement id]
  varDecl (kw : Token) : Obeys P depth 1 1 [.token kw.span] (varDecl · kw) fun id => [.node .statement id]
  stmt : Obeys P depth 6 1 [] stmt fun id => [.node .statement id]

section

variable {P : String → Prop} {depth : Nat}

/-- An assignment goes to a variable or a field; whatever else stands before the sign is rejected. -/
theorem StmtsDo.expr_succ (hempty : P "") (h : StmtsDo P depth) :
    Obeys P (depth + 1) 5 1 [] Parser.expr fun id => [.node .expression id] := by
  intro n a
  rw [Parser.expr, Parser.expr]
  have hassign {A : Prop} {m : Nat} (hA : A → 16 * m + 5 ≤ depth) (lhs : Nat) :
      Does P A m a a 0 none [.node .expression lhs] (do
        let rhs ← Parser.expr depth
        Parser.writeFrom (.assign lhs rhs) (← spanOf lhs)) (do
        let rhs ← Parser.expr (depth + 1)
        Parser.writeFrom (.assign lhs rhs) (← spanOf lhs)) fun id => [.node .expression id] :=
    (h.expr.does hA).taking fun rhs m => .spanOf fun span =>
      .fromMark .expression hempty rfl rfl (by simp) (by simp)
  refine ((h.binary 1).does (by omega)).taking fun lhs m => .isAt (fun tok hkind => ?_) (.pure rfl)
  refine .passed (.plain (by simp [hkind])) fun eq m => .look (looks_formOf lhs) fun form => ?_
  split
  · exact hassign (by omega) lhs
  · exact hassign (by omega) lhs
  · exact .reject (reports_reportAt _ _)

theorem StmtsDo.binary_succ (h : StmtsDo P depth) (power : Nat) :
    Obeys P (depth + 1) 4 1 [] (Parser.binary · power) fun id => [.node .expression id] := by
  intro n a
  dsimp only
  rw [Parser.binary, Parser.binary]
  exact (h.unary.does (by omega)).taking fun lhs m => (h.binaryRest power lhs).does (by omega)

theorem StmtsDo.binaryRest_succ (hempty : P "") (h : StmtsDo P depth) (power lhs : Nat) :
    Obeys P (depth + 1) 5 0 [.node .expression lhs] (Parser.binaryRest · power lhs) fun id =>
      [.node .expression id] := by
  intro n a
  dsimp only
  rw [Parser.binaryRest, Parser.binaryRest]
  refine .peekKind fun tok => ?_
  split
  · exact .anywhere (.pure rfl)
  rename_i op hop
  split
  · exact .anywhere (.pure rfl)
  have hkind : tok.kind ∉ [Token.Kind.lparen, .rparen, .eof] := by
    intro hmem
    simp only [List.mem_cons, List.not_mem_nil, or_false] at hmem
    rcases hmem with hkind | hkind | hkind <;> rw [hkind] at hop <;> cases hop
  refine .passed (.plain hkind) fun _ m => ((h.binary _).does (by omega)).taking fun rhs m => .spanOf fun span => ?_
  exact Does.spending [] (.fromMark .expression hempty rfl rfl (by simp) (by simp)) fun id m =>
    (h.binaryRest power id).does (by omega)

theorem StmtsDo.unary_succ (hempty : P "") (h : StmtsDo P depth) :
    Obeys P (depth + 1) 3 1 [] Parser.unary fun id => [.node .expression id] := by
  intro n a
  rw [Parser.unary, Parser.unary]
  refine .peek fun tok _ => ?_
  split
  · rename_i hkind
    refine .advanced (.plain (by simp [hkind])) fun _ m => (h.unary.does (by omega)).taking fun x m => ?_
    exact .fromToken .expression hempty rfl (by simp)
  · rename_i hkind
    refine .advanced (.plain (by simp [hkind])) fun _ m => (h.unary.does (by omega)).taking fun x m => ?_
    exact .fromToken .expression hempty rfl (by simp)
  · rename_i hkind
    exact .passed (.plain (by simp [hkind])) fun _ m => (h.unary.does (by omega)).less (Nat.zero_le 1)
  · exact .anywhere ((h.primary.does (by omega)).taking fun x m => (h.postfixes x).does (by omega))

theorem StmtsDo.postfixes_succ (hempty : P "") (h : StmtsDo P depth) (x : Nat) :
    Obeys P (depth + 1) 6 0 [.node .expression x] (Parser.postfixes · x) fun id => [.node .expression id] := by
  intro n a
  dsimp only
  rw [Parser.postfixes, Parser.postfixes]
  refine .peekKind fun tok => ?_
  split
  · rename_i hkind
    refine .passed (.plain (by simp [hkind])) fun _ m => .expected (.plain (by decide)) fun name m hname => ?_
    refine .spanOf fun span => Does.spending [] (.write .expression .member (hname rfl) rfl) fun id m => ?_
    exact (h.postfixes id).does (by omega)
  · rename_i hkind
    refine .passed (.opened hkind) fun _ m => ?_
    refine (Does.items (fun _ => .eat (by decide)) (fun _ => h.expr.does (by omega)) (by omega)).andThen
      fun args m => ?_
    refine .skipped (.closed rfl) fun _ m _ => .spanOf fun span => ?_
    exact Does.spending [] (.fromMark .expression hempty rfl rfl (by simp) (by simp)) fun id m =>
      (h.postfixes id).does (by omega)
  · exact .anywhere (.pure rfl)

theorem StmtsDo.primary_succ (hempty : P "") (types : TypesDo P depth) (h : StmtsDo P depth) :
    Obeys P (depth + 1) 2 1 [] Parser.primary fun id => [.node .expression id] := by
  intro n a
  rw [Parser.primary, Parser.primary]
  refine .peek fun tok htok => ?_
  have hleaf (form : Form) (hform : form.parts = []) (hname : P form.name)
      (hplace : Place.expression.admits form = true) (hkind : tok.kind ∉ [Token.Kind.lparen, .rparen, .eof]) :
      Does P (16 * n + 2 ≤ depth + 1) n a a 1 (some tok) [] (do let _ ← advance; write form tok.span)
        (do let _ ← advance; write form tok.span) fun id => [.node .expression id] :=
    .advanced (.plain hkind) fun _ m => .write .expression (.leaf hform) hname hplace
  split
  · rename_i hkind
    refine .advanced (.plain (by simp [hkind])) fun _ m => ?_
    split
    · exact .write .expression (.leaf rfl) hempty rfl
    · exact .reject (reports_reportAt _ _)
  · rename_i hkind
    exact hleaf _ rfl hempty rfl (by simp [hkind])
  · rename_i hkind
    exact hleaf _ rfl hempty rfl (by simp [hkind])
  · rename_i hkind
    exact hleaf _ rfl hempty rfl (by simp [hkind])
  · rename_i hkind
    exact hleaf _ rfl hempty rfl (by simp [hkind])
  · rename_i hkind
    exact hleaf _ rfl hempty rfl (by simp [hkind])
  · rename_i hkind
    refine .look looks_get fun s => ?_
    split
    -- the name is the one parameter of an arrow function
    · refine .mark (.advanced (.plain (by simp [hkind])) fun _ m => ?_)
      refine Does.spending [.mark tok.span] (.write .param (.leaf rfl) (htok hkind) rfl) fun p m => ?_
      exact (h.arrowRest tok.span [p]).does (by omega)
    · exact hleaf _ rfl (htok hkind) rfl (by simp [hkind])
  · rename_i hkind
    refine .look looks_isArrowAhead fun b => ?_
    split
    -- the parser of parameters takes the parenthesis itself, so nothing is taken before it
    · exact .mark (.anywhere ((types.params.does (by omega)).taking fun ps m =>
        (h.arrowRest tok.span ps).does (by omega)))
    · refine .passed (.opened hkind) fun _ m => (h.expr.does (by omega)).taking fun x m => ?_
      exact .skipped (.closed rfl) fun _ m _ => .pure rfl
  · rename_i hkind
    refine .advanced (.plain (by simp [hkind])) fun _ m => ?_
    refine ((h.properties []).does (by omega)).andThen fun props m => ?_
    exact .skipped (.plain (by decide)) fun _ m _ => .fromToken .expression hempty rfl (by simp)
  · exact .reject (reports_report _)
  · exact .reject (reports_report _)

theorem StmtsDo.arrowRest_succ (hempty : P "") (types : TypesDo P depth) (h : StmtsDo P depth) (start : Span)
    (ps : List Nat) :
    Obeys P (depth + 1) 4 0 (.mark start :: ps.map (.node .param)) (Parser.arrowRest · start ps) fun id =>
      [.node .expression id] := by
  intro n a
  dsimp only
  rw [Parser.arrowRest, Parser.arrowRest]
  refine (types.ascription.does (by omega)).andThen fun result m => .skipped (.plain (by decide)) fun _ m _ => ?_
  refine .look (looks_isAt _) fun b => ?_
  dsimp only
  split
  · exact ((h.block.does (by omega)).relax (.inl rfl)).taking fun body m =>
      .fromMark .expression hempty rfl rfl (by simp) (by simp)
  · exact ((h.expr.does (by omega)).relax (.inr rfl)).taking fun body m =>
      .fromMark .expression hempty rfl rfl (by simp) (by simp)

/-- A property is written when its value is held, and the others are read behind a comma. -/
theorem StmtsDo.property {A : Prop} {n a : Nat} (h : StmtsDo P depth) (hA : A → 16 * n + 1 ≤ depth)
    (seen : List String) (name : Token) (hname : P name.text) (value : Nat) :
    Does P A n a a 0 none [.mark name.span, .node .expression value] (do
      let p ← Parser.writeFrom (.property name.text value) name.span
      if ← eat .comma then
        return p :: (← Parser.properties depth (name.text :: seen))
      return [p]) (do
      let p ← Parser.writeFrom (.property name.text value) name.span
      if ← eat .comma then
        return p :: (← Parser.properties (depth + 1) (name.text :: seen))
      return [p]) fun ids => ids.map (.node .property) := by
  refine Does.spending [] (.fromMark .property hname rfl rfl (by simp) (by simp)) fun p m =>
    (Does.eat (by decide)).andThen fun comma m => ?_
  split
  · refine ((h.properties _).does fun hA' => ?_).andThen fun ps m => .pure rfl
    have := hA hA'.1.1
    omega
  · exact .pure rfl

theorem StmtsDo.properties_succ (h : StmtsDo P depth) (seen : List String) :
    Obeys P (depth + 1) 1 0 [] (Parser.properties · seen) fun ids => ids.map (.node .property) := by
  intro n a
  dsimp only
  rw [Parser.properties, Parser.properties]
  refine .look (looks_isAt _) fun b => ?_
  split
  · exact .pure rfl
  -- a name that was seen before is reported, and its property is written all the same
  have hnamed {A : Prop} {m : Nat} (hA : A → 16 * m + 1 ≤ depth) (name : Token) (hname : P name.text)
      (value : Nat) :
      Does P A m a a 0 none [.mark name.span, .node .expression value] (do
        if seen.contains name.text then reportAt name.span (.duplicateProperty name.text)
        let p ← Parser.writeFrom (.property name.text value) name.span
        if ← eat .comma then
          return p :: (← Parser.properties depth (name.text :: seen))
        return [p]) (do
        if seen.contains name.text then reportAt name.span (.duplicateProperty name.text)
        let p ← Parser.writeFrom (.property name.text value) name.span
        if ← eat .comma then
          return p :: (← Parser.properties (depth + 1) (name.text :: seen))
        return [p]) fun ids => ids.map (.node .property) := by
    split
    · exact .warn (reports_reportAt _ _) (h.property hA seen name hname value)
    · exact h.property hA seen name hname value
  refine .expected (.plain (by decide)) fun name m hname => .ofToken ?_
  refine (Does.eat (by decide)).andThen fun colon m => ?_
  cases colon with
  | true =>
    refine (h.expr.does (by omega)).taking fun value m => ?_
    exact (hnamed (by omega) name (hname rfl) value).weaken id (Nat.le_refl 0) (by simp)
  | false =>
    refine Does.spending [.mark name.span] (.write .expression (.leaf rfl) (hname rfl) rfl) fun value m => ?_
    exact hnamed (by omega) name (hname rfl) value

theorem StmtsDo.condition_succ (h : StmtsDo P depth) :
    Obeys P (depth + 1) 1 1 [] Parser.condition fun id => [.node .expression id] := by
  intro n a
  rw [Parser.condition, Parser.condition]
  refine .skipped (.opened rfl) fun _ m _ => (h.expr.does (by omega)).taking fun x m => ?_
  exact .skipped (.closed rfl) fun _ m _ => .pure rfl

theorem StmtsDo.block_succ (hempty : P "") (h : StmtsDo P depth) :
    Obeys P (depth + 1) 1 1 [] Parser.block fun id => [.node .statement id] := by
  intro n a
  rw [Parser.block, Parser.block]
  refine .expected (.plain (by decide)) fun start m _ => ?_
  refine (Does.statements (by decide) (fun _ => h.stmt.does (by omega)) (by omega)).andThen fun body m => ?_
  exact .skipped (.plain (by decide)) fun _ m _ => .fromToken .statement hempty rfl (by simp)

theorem StmtsDo.varDecl_succ (types : TypesDo P depth) (h : StmtsDo P depth) (kw : Token) :
    Obeys P (depth + 1) 1 1 [.token kw.span] (Parser.varDecl · kw) fun id => [.node .statement id] := by
  intro n a
  dsimp only
  rw [Parser.varDecl, Parser.varDecl]
  refine .skipped (.plain (by decide)) fun name m hname => (types.ascription.does (by omega)).andThen fun t m => ?_
  refine (Does.eat (by decide)).andThen fun b m => ?_
  split
  · exact .reject (reports_reportAt _ _)
  refine (h.expr.does (by omega)).taking fun init m => .ended (fun m => ?_) (.inl ⟨rfl, rfl⟩)
  exact .fromToken .statement (hname rfl) rfl (by simp)

theorem StmtsDo.stmt_succ (hempty : P "") (types : TypesDo P depth) (h : StmtsDo P depth) :
    Obeys P (depth + 1) 6 1 [] Parser.stmt fun id => [.node .statement id] := by
  intro n a
  rw [Parser.stmt, Parser.stmt]
  refine .peek fun tok _ => ?_
  split
  · rename_i hkind
    refine .advanced (.plain (by simp [hkind])) fun _ m => .skipped (.plain (by decide)) fun name m hname => ?_
    refine .skipped (.plain (by decide)) fun _ m _ => (types.type.does (by omega)).taking fun t m => ?_
    exact .ended (fun m => .fromToken .statement (hname rfl) rfl (by simp)) (.inl ⟨rfl, rfl⟩)
  · rename_i hkind
    refine .advanced (.plain (by simp [hkind])) fun _ m => .skipped (.plain (by decide)) fun _ m _ => ?_
    refine .skipped (.plain (by decide)) fun name m hname => (types.params.does (by omega)).taking fun ps m => ?_
    refine .skipped (.plain (by decide)) fun _ m _ => (types.type.does (by omega)).taking fun result m => ?_
    exact .ended (fun m => .fromToken .statement (hname rfl) rfl (by simp)) (.inl ⟨rfl, rfl⟩)
  · rename_i hkind
    refine .advanced (.plain (by simp [hkind])) fun _ m => .skipped (.plain (by decide)) fun name m hname => ?_
    refine (types.params.does (by omega)).taking fun ps m => ?_
    refine (types.ascription.does (by omega)).andThen fun result m => ?_
    exact ((h.block.does (by omega)).relax (.inl rfl)).taking fun body m =>
      .fromToken .statement (hname rfl) rfl (by simp)
  · rename_i hkind
    exact .advanced (.plain (by simp [hkind])) fun _ m => ((h.varDecl tok).does (by omega)).less (Nat.zero_le 1)
  · rename_i hkind
    exact .advanced (.plain (by simp [hkind])) fun _ m => ((h.varDecl tok).does (by omega)).less (Nat.zero_le 1)
  · rename_i hkind
    exact .advanced (.plain (by simp [hkind])) fun _ m => ((h.varDecl tok).does (by omega)).less (Nat.zero_le 1)
  · rename_i hkind
    refine .advanced (.plain (by simp [hkind])) fun _ m => .look (looks_isAtAny _) fun b => ?_
    refine .look looks_newlineBefore fun b' => ?_
    dsimp only
    split
    · refine (Does.absent .expression).andThen fun value m => ?_
      exact .ended (fun m => .fromToken .statement hempty rfl (by simp)) (.inl ⟨rfl, rfl⟩)
    · refine (h.expr.does (by omega)).present.taking fun value m => ?_
      exact .ended (fun m => .fromToken .statement hempty rfl (by simp)) (.inl ⟨rfl, rfl⟩)
  · rename_i hkind
    refine .advanced (.plain (by simp [hkind])) fun _ m => (h.condition.does (by omega)).taking fun cond m => ?_
    refine (h.stmt.does (by omega)).taking fun thenBranch m => (Does.eat (by decide)).andThen fun b m => ?_
    dsimp only
    split
    · exact (h.stmt.does (by omega)).present.taking fun elseBranch m => .fromToken .statement hempty rfl (by simp)
    · exact (Does.absent .statement).andThen fun elseBranch m => .fromToken .statement hempty rfl (by simp)
  · rename_i hkind
    refine .advanced (.plain (by simp [hkind])) fun _ m => (h.condition.does (by omega)).taking fun cond m => ?_
    exact (h.stmt.does (by omega)).taking fun body m => .fromToken .statement hempty rfl (by simp)
  · exact .anywhere (h.block.does (by omega))
  · rename_i hkind
    exact .advanced (.plain (by simp [hkind])) fun _ m => .write .statement (.leaf rfl) hempty rfl
  -- alone among the statements, an expression without an end is given up
  · refine .mark (.anywhere ((h.expr.does (by omega)).taking fun x m => .ended (fun m => ?_) (.inr ⟨rfl, rfl⟩)))
    exact .fromMark .statement hempty rfl rfl (by simp) (by simp)

/-- The induction is on the depth, with one step for each parser. -/
theorem stmtsDo (hempty : P "") (hnull : P "null") (depth : Nat) : StmtsDo P depth := by
  induction depth with
  | zero =>
    constructor <;> intros <;> intro n a <;> refine .never (by omega) ?_ <;>
    simp only [Parser.expr, Parser.binary, Parser.binaryRest, Parser.unary, Parser.postfixes, Parser.primary,
      Parser.arrowRest, Parser.properties, Parser.condition, Parser.block, Parser.varDecl, Parser.stmt]
  | succ depth ih =>
    have types := typesDo hempty hnull depth
    constructor
    case expr => exact ih.expr_succ hempty
    case binary => exact ih.binary_succ
    case binaryRest => exact ih.binaryRest_succ hempty
    case unary => exact ih.unary_succ hempty
    case postfixes => exact ih.postfixes_succ hempty
    case primary => exact ih.primary_succ hempty types
    case arrowRest => exact ih.arrowRest_succ hempty types
    case properties => exact ih.properties_succ
    case condition => exact ih.condition_succ
    case block => exact ih.block_succ hempty
    case varDecl => exact ih.varDecl_succ types
    case stmt => exact ih.stmt_succ hempty types

end

end

theorem assembled_module : Assembled True module := by
  refine looks_peek.assembled.bind fun tok => looks_get.assembled.bind fun s => ?_
  have hstmt : Assembled True (stmt (depthFor s.rest.length)) := ((stmtsDo trivial trivial _).stmt 0 0).assembled
  exact (Assembled.statements hstmt _).bind fun _ => looks_lastSpan.assembled.bind fun _ => .write trivial _ _

/-! ### What parsing depends on -/

theorem attempt_apply (p : Parser α) (i : Input) (s : State) : attempt p i s = (some (p i s).1, (p i s).2) := rfl

/-- The grammar looks at nothing of a file but its content. -/
theorem Assembled.congr {α : Type} {p : Parser α} (h : Assembled writes p) {file file' : File}
    (hcontent : file'.content = file.content) (maxErrors : Nat) : p ⟨file', maxErrors⟩ = p ⟨file, maxErrors⟩ := by
  funext s
  induction h generalizing s with
  | pure | fail | enough | advance | eat | write | reportAt => rfl
  | look g =>
    change (some (g file'.content s), s) = _
    rw [hcontent]
  | @bind α β p f _ _ ihp ihf =>
    rw [bind_apply, bind_apply, ihp s]
    rcases p ⟨file, maxErrors⟩ s with ⟨_ | a, s'⟩
    · rfl
    · exact ihf a s'
  | @attempt α p _ ih =>
    rw [attempt_apply, attempt_apply, ih s]

end TypedScript.Ast.Parser

namespace TypedScript.Ast

open TypedScript.Source

/-- Files with one number and one content are parsed alike. -/
theorem parse_congr {file file' : File} (hid : file'.id = file.id) (hcontent : file'.content = file.content)
    (maxErrors : Nat) : parse file' maxErrors = parse file maxErrors := by
  have htokens : Token.ofFile file' = Token.ofFile file := by rw [Token.ofFile, Token.ofFile, hid, hcontent]
  unfold parse
  rw [htokens, hid, Parser.assembled_module.congr hcontent]

end TypedScript.Ast
