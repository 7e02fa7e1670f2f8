import Mathlib.Data.List.Forall2
import TypedScript.Proofs.Ast.Depth

/-!
# What a parser reads

For a parser only the kinds and the texts of tokens matter. It reads words if, whatever follows, it takes just
these without reporting anything, and what it writes then is known from the numbers that it yields. Of what
follows only the next token is looked at.

* `Fact`: what is known of nodes and stays true when others are written.
* `Reads`: a parser reads words and goes on like another one.
* `Returns`: a parser reads words and is done.
-/

namespace TypedScript.Ast

/-- A token without its place. -/
structure Word where
  kind : Token.Kind
  text : String := ""
  deriving DecidableEq, Repr

def Word.ofToken (tok : Token) : Word := ⟨tok.kind, tok.text⟩

/-- The forms of nodes by number. -/
abbrev Forms := Nat → Option Form

/-- What is known of nodes and stays true when others are written. -/
structure Fact where
  holds : Forms → Prop
  mono {forms forms' : Forms} : (∀ id f, forms id = some f → forms' id = some f) → holds forms → holds forms'

namespace Fact

def none : Fact := ⟨fun _ => True, fun _ h => h⟩

def form (id : Nat) (f : Form) : Fact := ⟨fun forms => forms id = some f, fun hle h => hle _ _ h⟩

def and (a b : Fact) : Fact :=
  ⟨fun forms => a.holds forms ∧ b.holds forms, fun hle h => ⟨a.mono hle h.1, b.mono hle h.2⟩⟩

/-- What is known of every item of a list and of the number in its place. -/
def forall₂ {ι : Type} (fact : ι → Nat → Fact) (xs : List ι) (ids : List Nat) : Fact :=
  ⟨fun forms => List.Forall₂ (fun x id => (fact x id).holds forms) xs ids,
    fun hle h => h.imp fun x id => (fact x id).mono hle⟩

end Fact

namespace Parser

open TypedScript.Source

variable {α β γ ι : Type}

def State.forms (s : State) : Forms := fun id => (s.node? id).map (·.form)

def State.words (s : State) : List Word := s.rest.map Word.ofToken

/-- The kind of the first word; behind the last one the file ends. -/
def front : List Word → Token.Kind
  | [] => .eof
  | w :: _ => w.kind

/-- The state when some words have been read and these are left. -/
structure After (s s' : State) (more : List Word) : Prop where
  words : s'.words = more
  forms : ∀ id f, s.forms id = some f → s'.forms id = some f
  errors : s'.errors = s.errors
  diagnostics : s'.diagnostics = s.diagnostics

theorem After.refl (s : State) : After s s s.words := ⟨rfl, fun _ _ h => h, rfl, rfl⟩

theorem After.trans {s s' s'' : State} {more more' : List Word} (h : After s s' more) (h' : After s' s'' more') :
    After s s'' more' where
  words := h'.words
  forms id f hf := h'.forms id f (h.forms id f hf)
  errors := h'.errors.trans h.errors
  diagnostics := h'.diagnostics.trans h.diagnostics

/-- Where `pre` is known, `p` reads the words and goes on like `q`, provided that what follows the words starts
with a token that is `ok`; then `post` is known. -/
def Reads (pre : Fact) (p : Parser β) (ws : List Word) (ok : Token.Kind → Prop) (q : α → Parser β)
    (post : α → Fact) : Prop :=
  ∀ i s more, pre.holds s.forms → s.words = ws ++ more → ok (front more) →
    ∃ a s', p i s = q a i s' ∧ After s s' more ∧ (post a).holds s'.forms

/-- The parser reads the words and succeeds. -/
def Returns (pre : Fact) (p : Parser α) (ws : List Word) (ok : Token.Kind → Prop) (post : α → Fact) : Prop :=
  Reads pre p ws ok (fun a => (pure a : Parser α)) post

variable {pre pre' : Fact} {p : Parser β} {ws ws' : List Word} {ok ok' : Token.Kind → Prop} {q : α → Parser β}
  {post : α → Fact}

theorem peek_eq {s : State} {w : Word} {more : List Word} (h : s.words = w :: more) :
    ∃ tok rest, s.rest = tok :: rest ∧ Word.ofToken tok = w ∧ rest.map Word.ofToken = more ∧ s.peek = tok := by
  obtain ⟨tok, rest, hrest, hw, hmore⟩ := List.map_eq_cons_iff.1 h
  exact ⟨tok, rest, hrest, hw, hmore, by rw [State.peek, hrest]; rfl⟩

theorem kind_peek (s : State) : s.peek.kind = front s.words := by
  unfold State.peek State.words
  cases s.rest <;> rfl

theorem second_eq (s : State) : s.second = front s.words.tail := by
  unfold State.second State.words
  match s.rest with
  | [] | [_] | _ :: _ :: _ => rfl

theorem after_advance {s : State} {w : Word} {more : List Word} (h : s.words = w :: more) (hw : w.kind ≠ .eof) :
    Word.ofToken s.peek = w ∧ After s s.advance more := by
  obtain ⟨tok, rest, hrest, rfl, hmore, hpeek⟩ := peek_eq h
  have hkind : s.peek.kind ≠ .eof := by rw [hpeek]; exact hw
  refine ⟨by rw [hpeek], ?_⟩
  rw [State.advance, if_neg hkind, hrest]
  exact ⟨hmore, fun _ _ h => h, rfl, rfl⟩

theorem eat_true {k : Token.Kind} {i : Input} {s : State} (h : s.peek.kind = k) : eat k i s =
    (some true, s.advance) := if_pos h

theorem eat_false {k : Token.Kind} {i : Input} {s : State} (h : s.peek.kind ≠ k) : eat k i s = (some false, s) :=
  if_neg h

namespace Reads

theorem mono (h : Reads pre p ws ok q post) (hpre : ∀ forms, pre'.holds forms → pre.holds forms)
    (hok : ∀ k, ok' k → ok k) : Reads pre' p ws ok' q post :=
  fun i s more hs hwords hfront => h i s more (hpre _ hs) hwords (hok _ hfront)

theorem imp {post' : α → Fact} (h : Reads pre p ws ok q post)
    (hpost : ∀ a forms, pre.holds forms → (post a).holds forms → (post' a).holds forms) :
    Reads pre p ws ok q post' := by
  intro i s more hs hwords hfront
  obtain ⟨a, s', hrun, hafter, ha⟩ := h i s more hs hwords hfront
  exact ⟨a, s', hrun, hafter, hpost a _ (pre.mono hafter.forms hs) ha⟩

/-- Nothing is left to be read. -/
theorem done (a : α) (h : ∀ forms, pre.holds forms → (post a).holds forms) : Reads pre (q a) [] ok q post := by
  intro i s more hs hwords _
  rw [List.nil_append] at hwords
  exact ⟨a, s, rfl, hwords ▸ .refl s, h _ hs⟩

/-- What is known before is known afterwards. -/
theorem trans {mid : γ → Fact} {r : γ → Parser β} {ok₁ : Token.Kind → Prop} (h : Reads pre p ws ok₁ r mid)
    (h' : ∀ a, Reads (pre.and (mid a)) (r a) ws' ok q post)
    (hok : ∀ more, ok (front more) → ok₁ (front (ws' ++ more))) :
    Reads pre p (ws ++ ws') ok q post := by
  intro i s more hs hwords hfront
  rw [List.append_assoc] at hwords
  obtain ⟨a, s', hrun, hafter, ha⟩ := h i s _ hs hwords (hok more hfront)
  obtain ⟨b, s'', hrun', hafter', hb⟩ := h' a i s' more ⟨pre.mono hafter.forms hs, ha⟩ hafter.words hfront
  exact ⟨b, s'', hrun.trans hrun', hafter.trans hafter', hb⟩

/-- One parser reads some words and the next one the others. -/
theorem bind {mid : γ → Fact} {p : Parser γ} {f : γ → Parser β} {ok₁ : Token.Kind → Prop}
    (h : Returns pre p ws ok₁ mid) (h' : ∀ a, Reads (pre.and (mid a)) (f a) ws' ok q post)
    (hok : ∀ more, ok (front more) → ok₁ (front (ws' ++ more))) :
    Reads pre (p >>= f) (ws ++ ws') ok q post := by
  refine trans ?_ h' hok
  intro i s more hs hwords hfront
  obtain ⟨a, s', hrun, hafter, ha⟩ := h i s more hs hwords hfront
  exact ⟨a, s', by rw [bind_apply, hrun]; rfl, hafter, ha⟩

/-- The first parser reads all of the words. -/
theorem bind' {mid : γ → Fact} {p : Parser γ} {f : γ → Parser β} (h : Returns pre p ws ok mid)
    (h' : ∀ a, Reads (pre.and (mid a)) (f a) [] ok q post) : Reads pre (p >>= f) ws ok q post := by
  simpa using bind h h' fun more hmore => hmore

/-- The first parser reads nothing. -/
theorem before {mid : γ → Fact} {p : Parser γ} {f : γ → Parser β} {ok₁ : Token.Kind → Prop}
    (h : Returns pre p [] ok₁ mid) (h' : ∀ a, Reads (pre.and (mid a)) (f a) ws ok q post)
    (hok : ∀ more, ok (front more) → ok₁ (front (ws ++ more))) :
    Reads pre (p >>= f) ws ok q post := bind h h' hok

/-! ### Primitives -/

/-- A parser that only looks at the words. -/
theorem look {p : Parser γ} {f : γ → Parser β} {g : List Word → γ} {v : γ}
    (hp : ∀ i s, p i s = (some (g s.words), s)) (hv : ∀ more, ok (front more) → g (ws ++ more) = v)
    (h : Reads pre (f v) ws ok q post) :
    Reads pre (p >>= f) ws ok q post := by
  intro i s more hs hwords hfront
  obtain ⟨a, s', hrun, hafter, ha⟩ := h i s more hs hwords hfront
  refine ⟨a, s', ?_, hafter, ha⟩
  rw [bind_apply, hp, ← hrun, ← hv more hfront, ← hwords]

/-- A parser that yields something which does not matter. -/
theorem skip {p : Parser γ} {f : γ → Parser β} (hp : ∀ i s, ∃ a, p i s = (some a, s))
    (h : ∀ a, Reads pre (f a) ws ok q post) : Reads pre (p >>= f) ws ok q post := by
  intro i s more hs hwords hfront
  obtain ⟨c, hc⟩ := hp i s
  obtain ⟨a, s', hrun, hafter, ha⟩ := h c i s more hs hwords hfront
  refine ⟨a, s', ?_, hafter, ha⟩
  rw [bind_apply, hc, ← hrun]

variable {w : Word} {k : Token.Kind}

/-- The token at the front is looked at. -/
theorem peek {f : Token → Parser β} (hw : ws.head? = some w)
    (h : ∀ tok, Word.ofToken tok = w → Reads pre (f tok) ws ok q post) : Reads pre (peek >>= f) ws ok q post := by
  intro i s more hs hwords hfront
  obtain ⟨ws, rfl⟩ := List.head?_eq_some_iff.1 hw
  obtain ⟨tok, rest, -, hw, -, hpeek⟩ := peek_eq hwords
  obtain ⟨a, s', hrun, hafter, ha⟩ := h tok hw i s more hs hwords hfront
  exact ⟨a, s', by rw [← hrun, ← hpeek]; rfl, hafter, ha⟩

theorem advance {f : Token → Parser β} (hw : w.kind ≠ .eof)
    (h : ∀ tok, Word.ofToken tok = w → Reads pre (f tok) ws ok q post) : Reads pre (advance >>= f)
    (w :: ws) ok q post := by
  intro i s more hs hwords hfront
  obtain ⟨htok, hadvance⟩ := after_advance hwords hw
  obtain ⟨a, s', hrun, hafter, ha⟩ :=
    h s.peek htok i s.advance more (pre.mono hadvance.forms hs) hadvance.words hfront
  exact ⟨a, s', hrun, hadvance.trans hafter, ha⟩

theorem isAt {f : Bool → Parser β} {b : Bool} (hb : ∀ more, ok (front more) → decide (front (ws ++ more) = k) = b)
    (h : Reads pre (f b) ws ok q post) : Reads pre (isAt k >>= f) ws ok q post :=
  look (g := fun ws => decide (front ws = k)) (fun i s => by rw [← kind_peek]; rfl) hb h

theorem peekKind {f : Token.Kind → Parser β} (hk : ∀ more, ok (front more) → front (ws ++ more) = k)
    (h : Reads pre (f k) ws ok q post) : Reads pre (peekKind >>= f) ws ok q post :=
  look (g := front) (fun i s => by rw [← kind_peek]; rfl) hk h

theorem expect {f : Token → Parser β} {problem : Problem} (hk : w.kind = k) (hw : k ≠ .eof)
    (h : ∀ tok, Word.ofToken tok = w → Reads pre (f tok) ws ok q post) :
    Reads pre (expect k problem >>= f) (w :: ws) ok q post := by
  intro i s more hs hwords hfront
  obtain ⟨a, s', hrun, hafter, ha⟩ := advance (hk ▸ hw) h i s more hs hwords hfront
  have hkind : s.peek.kind = k := by rw [kind_peek, hwords]; exact hk
  refine ⟨a, s', ?_, hafter, ha⟩
  rw [← hrun]
  simp [bind_apply, Parser.expect, Parser.isAt, hkind]

/-- A parser that takes the token at the front, as is known from its kind. -/
theorem take {p : Parser γ} {f : γ → Parser β} {v : γ} (hw : w.kind ≠ .eof)
    (hp : ∀ i s, front s.words = w.kind → p i s = (some v, s.advance)) (h : Reads pre (f v) ws ok q post) :
    Reads pre (p >>= f) (w :: ws) ok q post := by
  intro i s more hs hwords hfront
  obtain ⟨-, hadvance⟩ := after_advance hwords hw
  obtain ⟨a, s', hrun, hafter, ha⟩ := h i s.advance more (pre.mono hadvance.forms hs) hadvance.words hfront
  refine ⟨a, s', ?_, hadvance.trans hafter, ha⟩
  rw [← hrun, bind_apply, hp i s (by rw [hwords]; rfl)]

/-- A parser that takes nothing, as is known from the kind of the token at the front. -/
theorem stay {p : Parser γ} {f : γ → Parser β} {v : γ} {P : Token.Kind → Prop}
    (hp : ∀ i s, P (front s.words) → p i s = (some v, s)) (hP : ∀ more, ok (front more) → P (front (ws ++ more)))
    (h : Reads pre (f v) ws ok q post) : Reads pre (p >>= f) ws ok q post := by
  intro i s more hs hwords hfront
  obtain ⟨a, s', hrun, hafter, ha⟩ := h i s more hs hwords hfront
  refine ⟨a, s', ?_, hafter, ha⟩
  rw [← hrun, bind_apply, hp i s (by rw [hwords]; exact hP more hfront)]

theorem eat {f : Bool → Parser β} (hk : w.kind = k) (hw : k ≠ .eof) (h : Reads pre (f true) ws ok q post) :
    Reads pre (eat k >>= f) (w :: ws) ok q post :=
  take (hk ▸ hw) (fun i s hs => eat_true (by rw [kind_peek, hs, hk])) h

theorem eatNot {f : Bool → Parser β} (hk : ∀ more, ok (front more) → front (ws ++ more) ≠ k)
    (h : Reads pre (f false) ws ok q post) : Reads pre (Parser.eat k >>= f) ws ok q post :=
  stay (P := (· ≠ k)) (fun i s hs => eat_false (by rwa [kind_peek])) hk h

theorem formOf {f : Option Form → Parser β} {id : Nat} {P : Form → Prop}
    (hP : ∀ forms, pre.holds forms → ∃ x, forms id = some x ∧ P x)
    (h : ∀ x, P x → Reads pre (f (some x)) ws ok q post) :
    Reads pre (formOf id >>= f) ws ok q post := by
  intro i s more hs hwords hfront
  obtain ⟨x, hx, hP⟩ := hP _ hs
  obtain ⟨a, s', hrun, hafter, ha⟩ := h x hP i s more hs hwords hfront
  refine ⟨a, s', ?_, hafter, ha⟩
  rw [← hrun, ← hx]
  rfl

/-- The token after the one at the front is looked at. -/
theorem second {f : State → Parser β} {P : Token.Kind → Prop}
    (hP : ∀ more, ok (front more) → P (front (ws ++ more).tail))
    (h : ∀ s : State, P s.second → Reads pre (f s) ws ok q post) : Reads pre (get >>= f) ws ok q post := by
  intro i s more hs hwords hfront
  have hsecond : P s.second := by
    rw [second_eq, hwords]
    exact hP more hfront
  exact h s hsecond i s more hs hwords hfront

/-- A parser that takes nothing and ends, as is known from the kind of the token at the front. -/
theorem halt {p : Parser α} {a : α} {P : Token.Kind → Prop} (hp : ∀ i s, P (front s.words) → p i s = (some a, s))
    (hP : ∀ k, ok k → P k) (h : ∀ forms, pre.holds forms → (post a).holds forms) : Returns pre p [] ok post := by
  intro i s more hs hwords hfront
  rw [List.nil_append] at hwords
  exact ⟨a, s, hp i s (by rw [hwords]; exact hP _ hfront), hwords ▸ .refl s, h _ hs⟩

theorem forms_write {s : State} (form : Form) (span : Span) (i : Input) :
    After s (Parser.write form span i s).2 s.words ∧ (Parser.write form span i s).2.forms
      (s.nodes.size + 1) = some form := by
  refine ⟨⟨rfl, fun id f hf => ?_, rfl, rfl⟩, by simp [Parser.write, State.forms, State.node?]⟩
  simp only [State.forms, State.node?, Parser.write] at hf ⊢
  split at hf
  · exact nomatch hf
  · rename_i hid
    obtain ⟨n, hn, rfl⟩ := Option.map_eq_some_iff.1 hf
    rw [if_neg hid, Array.getElem?_push_lt (Array.getElem?_eq_some_iff.1 hn).1]
    simp [(Array.getElem?_eq_some_iff.1 hn).2]

end Reads

theorem Reads.pure (a : α) (h : ∀ forms, pre.holds forms → (post a).holds forms) :
    Reads pre (pure a) [] ok (fun a => (pure a : Parser α)) post :=
  .done a h

theorem returns_write (form : Form) (span : Span) :
    Returns pre (write form span) [] ok fun id => .form id form := by
  intro i s more _ hwords _
  obtain ⟨hafter, hform⟩ := Reads.forms_write (s := s) form span i
  rw [List.nil_append] at hwords
  exact ⟨_, _, rfl, hwords ▸ hafter, hform⟩

theorem returns_writeFrom (form : Form) (start : Span) : Returns pre (writeFrom form start)
    [] ok fun id => .form id form :=
  .skip (fun _ _ => ⟨_, rfl⟩) fun _ => returns_write form _

/-- A node is written before the words are read. -/
theorem Reads.write {form : Form} {span : Span} {f : Nat → Parser β}
    (h : ∀ id, Reads (pre.and (.form id form)) (f id) ws ok q post) :
    Reads pre (Parser.write form span >>= f) ws ok q post := by
  have hwrite : Returns pre (Parser.write form span) [] (fun _ => True) fun id => .form id form :=
    returns_write form span
  exact .before hwrite h fun _ _ => trivial

theorem Reads.writeFrom {form : Form} {start : Span} {f : Nat → Parser β}
    (h : ∀ id, Reads (pre.and (.form id form)) (f id) ws ok q post) :
    Reads pre (Parser.writeFrom form start >>= f) ws ok q post := by
  have hwrite : Returns pre (Parser.writeFrom form start) [] (fun _ => True) fun id => .form id form :=
    returns_writeFrom form start
  exact .before hwrite h fun _ _ => trivial

end Parser

end TypedScript.Ast
