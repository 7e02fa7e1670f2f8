import TypedScript.Proofs.Ast.TypeReading

/-!
# Expressions are read back

An expression is read at a place where it stands as it is written there, and what is read where operators bind
tighter is read where they bind weaker.
-/

namespace TypedScript.Ast.Parser

open Filter TypedScript.Token

variable {power power' : Nat} {tail : Bool} {k : Kind} {ws ws' : List Word} {fact : Nat → Fact}

/-! ### What may follow -/

/-- The tokens that may follow an expression. -/
def closers : List Kind := [.rparen, .comma, .rbrace, .semicolon, .eof]

/-- The tokens that may follow an expression at a place where operators of at least the given power may stand. -/
def Follows (power : Nat) (tail : Bool) (k : Kind) : Prop :=
  if tail then k ∈ closers
  else k ∉ [Kind.dot, .lparen, .fatArrow, .colon] ∧ ∀ op ∈ BinaryOp.ofToken? k, op.power ≤ power

theorem follows_of_closer (power : Nat) (tail : Bool) (hk : k ∈ closers) : Follows power tail k := by
  unfold Follows
  split
  · exact hk
  · simp only [closers, List.mem_cons, List.not_mem_nil, or_false] at hk
    rcases hk with rfl | rfl | rfl | rfl | rfl <;> exact ⟨by decide, nofun⟩

theorem Follows.mono (hle : power ≤ power') (hk : Follows power tail k) : Follows power' tail k := by
  unfold Follows at hk ⊢
  split
  · rwa [if_pos ‹_›] at hk
  · rw [if_neg ‹_›] at hk
    exact ⟨hk.1, fun op hop => (hk.2 op hop).trans hle⟩

theorem Follows.not_mem (hk : Follows power tail k) : k ∉ [Kind.dot, .lparen, .fatArrow, .colon] := by
  cases tail with
  | false => exact hk.1
  | true => exact (follows_of_closer 0 false hk).1

theorem Follows.power_le (hk : Follows power tail k) : ∀ op ∈ BinaryOp.ofToken? k, op.power ≤ power := by
  cases tail with
  | false => exact hk.2
  | true => exact (follows_of_closer power false hk).2

/-- Words in which parentheses are opened and closed, so that looking ahead passes them. -/
def Balanced (ws : List Word) : Prop :=
  ∀ depth rest, closesBeforeArrow (depth + 1) (ws.map (·.kind) ++ rest) = closesBeforeArrow (depth + 1) rest

namespace Balanced

theorem nil : Balanced [] := fun _ _ => rfl

theorem append (h : Balanced ws) (h' : Balanced ws') : Balanced (ws ++ ws') := fun depth rest => by
  rw [List.map_append, List.append_assoc, h, h']

theorem cons {w : Word} (hw : w.kind ∉ [Kind.lparen, .rparen, .eof, .semicolon]) (h : Balanced ws) :
    Balanced (w :: ws) := by
  intro depth rest
  rw [List.map_cons, List.cons_append, ← h depth rest]
  simp only [List.mem_cons, List.not_mem_nil, or_false, not_or] at hw
  conv_lhs => unfold closesBeforeArrow
  split <;> simp_all

theorem parens (h : Balanced ws) : Balanced (Word.parens ws) := fun depth rest => by
  simp [Word.parens, Word.symbol, closesBeforeArrow, h (depth + 1)]

theorem braces (h : Balanced ws) : Balanced (Word.braces ws) :=
  .cons (by decide) (h.append (.cons (by decide) .nil))

theorem moreCommas : ∀ {wss : List (List Word)}, (∀ ws ∈ wss, Balanced ws) → Balanced (Word.moreCommas wss)
  | [], _ => nil
  | _ :: _, h => .cons (by decide) ((List.forall_mem_cons.1 h).1.append (moreCommas (List.forall_mem_cons.1 h).2))

theorem commas : ∀ {wss : List (List Word)}, (∀ ws ∈ wss, Balanced ws) → Balanced (Word.commas wss)
  | [], _ => nil
  | _ :: _, h => (List.forall_mem_cons.1 h).1.append (moreCommas (List.forall_mem_cons.1 h).2)

mutual

theorem type : ∀ t : TypeExpr, Balanced t.words
  | .name n => by
    rw [TypeExpr.words]
    split <;> exact .cons (by simp [Word.keyword, Word.name]) .nil
  | .object fields => braces (.commas (fields_words fields))
  | .func params result => (parens (.commas (params_words params))).append (.cons (by decide) (type result))
  termination_by structural t => t

theorem fields_words : ∀ fields, ∀ ws ∈ TypeExpr.fieldWords fields, Balanced ws
  | [], _, h => nomatch h
  | (n, t) :: fields, ws, h => by
    obtain rfl | h := List.mem_cons.1 h
    · exact .cons (by simp [Word.name]) (.cons (by decide) (type t))
    · exact fields_words fields ws h
  termination_by structural fields => fields

theorem params_words : ∀ params, ∀ ws ∈ TypeExpr.paramWords params, Balanced ws
  | [], _, h => nomatch h
  | (n, none) :: params, ws, h => by
    obtain rfl | h := List.mem_cons.1 h
    · exact .cons (by simp [Word.name]) .nil
    · exact params_words params ws h
  | (n, some t) :: params, ws, h => by
    obtain rfl | h := List.mem_cons.1 h
    · exact .cons (by simp [Word.name]) (.cons (by decide) (type t))
    · exact params_words params ws h
  termination_by structural params => params

end

theorem signature (params : List (String × Option TypeExpr)) (result : Option TypeExpr) :
    Balanced (Expr.signature params result) := by
  unfold Expr.signature
  split
  · exact .cons (by simp [Word.name]) .nil
  · refine (parens (.commas (params_words params))).append ?_
    cases result with
    | none => exact .nil
    | some t => exact .cons (by decide) (type t)

theorem enclose {e : Expr} {lead : Bool} {bare : Bool → Bool → List Word}
    (h : ∀ tail lead, Balanced (bare tail lead)) :
    Balanced (e.enclose power tail lead bare) := by
  unfold Expr.enclose
  split
  · exact parens (h _ _)
  · exact h _ _

mutual

theorem bare : ∀ (e : Expr) (tail lead : Bool), Balanced (e.bare tail lead)
  | .ident _, _, _ | .number _, _, _ | .string _, _, _ => .cons (by simp [Word.name]) .nil
  | .bool b, _, _ => .cons (by cases b <;> decide) .nil
  | .null, _, _ => .cons (by decide) .nil
  | .object props, _, _ => braces (.commas (props_words props))
  | .member x n, _, lead => (enclose (bare x)).append (.cons (by decide) (.cons (by simp [Word.name]) .nil))
  | .call f args, _, lead => (enclose (bare f)).append (parens (.commas (args_words args)))
  | .unary op x, tail, _ => .cons (by cases op <;> decide) (enclose (bare x))
  | .binary op x y, tail, lead => (enclose (bare x)).append (.cons (by cases op <;> decide) (enclose (bare y)))
  | .assign x y, _, lead => (enclose (bare x)).append (.cons (by decide) (enclose (bare y)))
  | .arrow params result body, _, _ => (signature params result).append (.cons (by decide) (enclose (bare body)))
  termination_by structural e => e

theorem props_words : ∀ props, ∀ ws ∈ Expr.propWords props, Balanced ws
  | [], _, h => nomatch h
  | (n, x) :: props, ws, h => by
    obtain rfl | h := List.mem_cons.1 h
    · exact .cons (by simp [Word.name]) (.cons (by decide) (enclose (bare x)))
    · exact props_words props ws h
  termination_by structural props => props

theorem args_words : ∀ args, ∀ ws ∈ Expr.argWords args, Balanced ws
  | [], _, h => nomatch h
  | x :: args, ws, h => by
    obtain rfl | h := List.mem_cons.1 h
    · exact enclose (bare x)
    · exact args_words args ws h
  termination_by structural args => args

end

end Balanced

/-! ### The first word -/

/-- Whether an expression may start with a token: none starts with a closing parenthesis, and the body of an arrow
function does not start with a brace. -/
def Starts (lead : Bool) (k : Kind) : Prop := k ≠ .rparen ∧ (lead = true → k ≠ .lbrace)

theorem starts_enclose {e : Expr} {lead : Bool} {bare : Bool → Bool → List Word} {more : List Word}
    (h : e.isEnclosed power tail lead = false → Starts lead (front (bare tail lead ++ more))) :
    Starts lead (front (e.enclose power tail lead bare ++ more)) := by
  unfold Expr.enclose
  split
  · exact ⟨by simp [Word.parens, Word.symbol, front], fun _ => by simp [Word.parens, Word.symbol, front]⟩
  · exact h (Bool.eq_false_iff.2 ‹_›)

theorem starts_bare : ∀ (e : Expr) (power : Nat) (tail lead : Bool) (more : List Word),
    e.isEnclosed power tail lead = false → Starts lead (front (e.bare tail lead ++ more))
  | .ident _, _, _, _, _, _ | .number _, _, _, _, _, _ | .string _, _, _, _, _, _ => by
    simp [Expr.bare, Starts, front, Word.name]
  | .bool b, _, _, _, _, _ => by cases b <;> simp [Expr.bare, Starts, front, Word.keyword]
  | .null, _, _, _, _, _ => by simp [Expr.bare, Starts, front, Word.keyword]
  | .object props, _, _, lead, _, h => by
    simp only [Expr.isEnclosed] at h
    simp [Expr.bare, Starts, front, Word.braces, Word.symbol, h]
  | .member x n, _, _, lead, more, _ => by
    simpa [Expr.bare] using starts_enclose fun h => starts_bare x _ _ lead _ h
  | .call f args, _, _, lead, more, _ => by
    simpa [Expr.bare] using starts_enclose fun h => starts_bare f _ _ lead _ h
  | .unary op x, _, _, lead, more, _ => by
    cases op <;> simp [Expr.bare, Starts, front, Word.symbol, UnaryOp.token]
  | .binary op x y, _, _, lead, more, _ => by
    simpa [Expr.bare] using starts_enclose fun h => starts_bare x _ _ lead _ h
  | .assign x y, _, _, lead, more, _ => by
    simpa [Expr.bare] using starts_enclose fun h => starts_bare x _ _ lead _ h
  | .arrow params result body, _, _, lead, more, _ => by
    simp only [Expr.bare, Expr.signature, Starts]
    split <;> simp [front, Word.name, Word.parens, Word.symbol]
  termination_by structural e => e

theorem starts_words (e : Expr) (power : Nat) (tail lead : Bool) (more : List Word) :
    Starts lead (front (e.words power tail lead ++ more)) := starts_enclose (starts_bare e power tail lead more)

/-! ### Reading at a place -/

/-- An operand is read, and it goes on with member accesses and calls. -/
def ReadsOperand (ws : List Word) (fact : Nat → Fact) : Prop :=
  ∃ n, ∀ᶠ d in atTop, Reads .none (unary (d + n)) ws (fun k => k ≠ .fatArrow ∧ k ≠ .colon) (postfixes d) fact

/-- An operand with signs and negations is read. -/
def ReadsUnary (tail : Bool) (ws : List Word) (fact : Nat → Fact) : Prop :=
  ∀ᶠ d in atTop, Returns .none (unary d) ws (Follows 7 tail) fact

/-- Operators of at least the given power are read, and it goes on with such operators. -/
def ReadsBinary (power : Nat) (tail : Bool) (ws : List Word) (fact : Nat → Fact) : Prop :=
  ∀ p ≤ power, ∃ n, ∀ᶠ d in atTop, Reads .none (binary (d + n) p) ws (Follows power tail) (binaryRest d p) fact

/-- An expression is read. -/
def ReadsExpr (ws : List Word) (fact : Nat → Fact) : Prop :=
  ∀ᶠ d in atTop, Returns .none (expr d) ws (· ∈ closers) fact

/-- The words are read where operators of at least the given power may stand. -/
def ReadsAt : Nat → Bool → List Word → (Nat → Fact) → Prop
  | 0, _, ws, fact => ReadsExpr ws fact
  | 7, tail, ws, fact => ReadsUnary tail ws fact
  | 8, _, ws, fact => ReadsOperand ws fact
  | power, tail, ws, fact => ReadsBinary power tail ws fact

theorem postfixes_eq {d x : Nat} {i : Input} {s : State} (h : front s.words ∉ [Kind.dot, .lparen]) :
    postfixes (d + 1) x i s = (some x, s) := by
  simp only [List.mem_cons, List.not_mem_nil, or_false, not_or, ← kind_peek] at h
  rw [postfixes, bind_apply]
  simp only [peekKind]
  generalize s.peek.kind = k at h
  cases k
  case dot => exact absurd rfl h.1
  case lparen => exact absurd rfl h.2
  all_goals rfl

theorem binaryRest_eq {d p x : Nat} {i : Input} {s : State}
    (h : ∀ op ∈ BinaryOp.ofToken? (front s.words), op.power < p) :
    binaryRest (d + 1) p x i s = (some x, s) := by
  rw [← kind_peek] at h
  rw [binaryRest, bind_apply]
  simp only [peekKind]
  rcases hop : BinaryOp.ofToken? s.peek.kind with _ | op
  · rfl
  · simp only [if_pos (h op hop)]
    rfl

/-- Where nothing goes on with an operand, it is all that is read. -/
theorem ReadsUnary.of_reads {n : Nat}
    (h : ∀ᶠ d in atTop, Reads .none (unary (d + n)) ws (Follows 7 tail) (postfixes d) fact) :
    ReadsUnary tail ws fact := by
  refine eventually_add (n + 1) (eventually_shift h 1) fun d h => ?_
  rw [Nat.add_assoc, Nat.add_comm 1 n] at h
  rw [← List.append_nil ws]
  refine h.trans (fun x => ?_) fun more hmore => hmore
  refine .halt (P := (· ∉ [Kind.dot, .lparen])) (fun i s hs => postfixes_eq hs) (fun k hk => ?_) fun _ h => h.2
  have := Follows.not_mem hk
  simp_all

theorem ReadsOperand.unary (h : ReadsOperand ws fact) : ReadsUnary tail ws fact := by
  obtain ⟨n, h⟩ := h
  refine .of_reads (n := n) (h.mono fun d h => h.mono (fun _ h => h) fun k (hk : Follows 7 tail k) => ?_)
  have := hk.not_mem
  simp_all

theorem ReadsUnary.binary (h : ReadsUnary tail ws fact) (hle : power ≤ 7) : ReadsBinary power tail ws fact := by
  refine fun p hp => ⟨1, h.mono fun d h => ?_⟩
  rw [Parser.binary]
  intro i s more hs hwords hfront
  obtain ⟨a, s', hrun, hafter, ha⟩ := h i s more hs hwords (hfront.mono hle)
  exact ⟨a, s', by rw [bind_apply, hrun]; rfl, hafter, ha⟩

theorem ReadsBinary.mono (h : ReadsBinary power tail ws fact) (hle : power' ≤ power) :
    ReadsBinary power' tail ws fact :=
  fun p hp => (h p (hp.trans hle)).imp fun _ h => h.mono fun _ h => h.mono (fun _ h => h) fun _ hk => hk.mono hle

theorem ReadsBinary.returns {p : Nat} (h : ReadsBinary power tail ws fact) (hp : p ≤ power) :
    ∀ᶠ d in atTop, Returns .none (binary d p) ws
      (fun k => Follows power tail k ∧ ∀ op ∈ BinaryOp.ofToken? k, op.power < p)
      fact := by
  obtain ⟨n, h⟩ := h p hp
  refine eventually_add (n + 1) (eventually_shift h 1) fun d h => ?_
  rw [Nat.add_assoc, Nat.add_comm 1 n] at h
  rw [← List.append_nil ws]
  refine h.trans (fun x => ?_) fun more hmore => hmore.1
  exact .halt (fun i s hs => binaryRest_eq hs) (fun k hk => hk.2) fun _ h => h.2

theorem ReadsBinary.expr (h : ReadsBinary 1 tail ws fact) : ReadsExpr ws fact := by
  refine eventually_succ (h.returns (le_refl 1)) fun d h => ?_
  rw [Parser.expr, ← List.append_nil ws]
  refine .bind h (fun x => ?_) fun more hmore => ⟨follows_of_closer _ _ hmore, ?_⟩
  · refine .isAt (b := false) (fun more hmore => decide_eq_false ?_) ?_
    · rintro h
      rw [List.nil_append] at h
      simp [h, closers] at hmore
    · exact .pure x fun _ h => h.2
  · simp only [closers, List.mem_cons, List.not_mem_nil, or_false] at hmore
    rw [List.nil_append]
    rcases hmore with h | h | h | h | h <;> rw [h] <;> rintro _ ⟨⟩

theorem reads_unary {w : Word} {ok : Kind → Prop} {d : Nat} (hw : ws.head? = some w)
    (hkind : w.kind ∉ [Kind.minus, .bang, .plus]) (h : Returns .none (primary d) ws ok fact) : Reads .none
    (unary (d + 1)) ws ok (postfixes d) fact := by
  rw [unary]
  refine .peek hw fun tok htok => ?_
  have hread : Reads .none (primary d >>= fun x => postfixes d x) ws ok (postfixes d) fact := by
    rw [← List.append_nil ws]
    refine .bind h (fun x => ?_) fun _ h => h
    exact .done x fun _ h => h.2
  rw [show w.kind = tok.kind from htok ▸ rfl] at hkind
  generalize tok.kind = k at hkind
  cases k
  case minus | bang | plus => exact absurd hkind (by decide)
  all_goals exact hread

/-- What is read without a sign is an operand. -/
theorem ReadsOperand.of_primary {w : Word} (hw : ws.head? = some w) (hkind : w.kind ∉ [Kind.minus, .bang, .plus])
    (h : ∀ᶠ d in atTop, Returns .none (primary d) ws (fun k => k ≠ .fatArrow ∧ k ≠ .colon) fact) :
    ReadsOperand ws fact :=
  ⟨1, h.mono fun _ h => reads_unary hw hkind h⟩

/-- Looking ahead from an opening parenthesis, what follows the closing one is seen. -/
theorem closesBeforeArrow_parens (h : Balanced ws) (more : List Word) :
    closesBeforeArrow 0 ((Word.parens ws ++ more).map (·.kind)) =
      (front more == .fatArrow || front more == .colon) := by
  have hrest := h 0 (.rparen :: more.map (·.kind))
  cases more <;> simp_all [Word.parens, Word.symbol, closesBeforeArrow, front]

theorem Reads.isArrowAhead {β : Type} {pre : Fact} {f : Bool → Parser β} {b : Bool} {ok : Kind → Prop} {α : Type}
    {q : α → Parser β} {post : α → Fact} (hws : Balanced ws)
    (hb : ∀ more, ok (front more) → (front (ws' ++ more) == .fatArrow || front (ws' ++ more) == .colon) = b)
    (h : Reads pre (f b) (Word.parens ws ++ ws') ok q post) :
    Reads pre (isArrowAhead >>= f) (Word.parens ws ++ ws') ok q post := by
  refine .look (g := fun ws => closesBeforeArrow 0 (ws.map (·.kind))) (fun i s => ?_) (fun more hmore => ?_) h
  · simp [Parser.isArrowAhead, State.words, Function.comp_def, Word.ofToken]
  · rw [List.append_assoc, closesBeforeArrow_parens hws, hb more hmore]

theorem ReadsExpr.parens (h : ReadsExpr ws fact) (hws : Balanced ws) : ReadsOperand (Word.parens ws) fact := by
  refine .of_primary rfl (by decide) (eventually_succ h fun d h => ?_)
  rw [primary, ← List.append_nil (Word.parens ws)]
  refine .peek rfl ?_
  rintro ⟨_, span, _, raw⟩ ⟨⟩
  refine .isArrowAhead (b := false) hws (fun more hmore => by simpa using hmore) ?_
  rw [List.append_nil]
  refine .advance (by decide) fun _ _ => ?_
  refine .bind h.under (fun x => ?_) fun _ _ => by simp [front, Word.symbol, closers]
  refine .expect rfl (by decide) fun _ _ => ?_
  exact .pure x fun _ h => h.2

theorem ReadsAt.mono (power : Nat) (h : ReadsAt power tail ws fact) (hle : power' ≤ power) (h8 : power ≤ 8) :
    ReadsAt power' tail ws fact := by
  induction power with
  | zero => rwa [Nat.le_zero.1 hle]
  | succ power ih =>
    obtain rfl | hlt := Nat.eq_or_lt_of_le hle
    · exact h
    · refine ih ?_ (Nat.lt_succ_iff.1 hlt) (by omega)
      match power, h with
      | 0, h => exact ReadsBinary.expr h
      | 6, h => exact ReadsUnary.binary h (by decide)
      | 7, h => exact ReadsOperand.unary h
      | 1, h | 2, h | 3, h | 4, h | 5, h => exact ReadsBinary.mono h (by decide)
      | _ + 8, _ => omega

/-- What is read where operators of more than the given power may stand is the right side of such an operator. -/
theorem ReadsAt.returns (h : ReadsAt (power + 1) tail ws fact) (hle : power ≤ 6) :
    ∀ᶠ d in atTop, Returns .none (binary d (power + 1)) ws (Follows power tail) fact := by
  have hread : ReadsBinary (power + 1) tail ws fact :=
    match power, h with
    | 6, h => ReadsUnary.binary h (le_refl 7)
    | 0, h | 1, h | 2, h | 3, h | 4, h | 5, h => h
    | _ + 7, _ => by omega
  refine (hread.returns (le_refl _)).mono fun d h => h.mono (fun _ h => h) fun k hk => ?_
  exact ⟨hk.mono (Nat.le_succ _), fun op hop => Nat.lt_succ_of_le (hk.power_le op hop)⟩

/-- An expression is read at every place where it can stand. -/
def Readable (e : Expr) : Prop := ∀ power tail lead, power ≤ 8 → ReadsAt power tail (e.words power tail lead) e.fact

/-- It is enough that an expression is read where it needs no parentheses. -/
theorem Readable.of_bare {e : Expr} (h : ∀ power tail lead, power ≤ 8 → e.isEnclosed power tail lead = false →
    ReadsAt power tail (e.bare tail lead) e.fact) : Readable e := by
  intro power tail lead hle
  unfold Expr.words Expr.enclose
  split
  · have hexpr : ReadsExpr (e.bare true false) e.fact :=
      h 0 true false (Nat.zero_le 8) (by cases e <;> simp [Expr.isEnclosed])
    exact ReadsAt.mono 8 (hexpr.parens (.bare e true false)) hle (le_refl 8)
  · exact h power tail lead hle (Bool.eq_false_iff.2 ‹_›)

/-! ### The forms of expressions -/

/-- A literal or a name. -/
theorem readable_atom {e : Expr} {w : Word} (hbare : ∀ tail lead, e.bare tail lead = [w])
    (hkind : w.kind ∉ [Kind.minus, .bang, .plus])
    (h : ∀ d, Returns .none (primary (d + 1)) [w] (fun k => k ≠ .fatArrow ∧ k ≠ .colon) e.fact) : Readable e := by
  refine .of_bare fun power tail lead hle _ => ?_
  rw [hbare]
  exact ReadsAt.mono 8 (.of_primary rfl hkind (eventually_of_succ h)) hle (le_refl 8)

theorem readable_ident (n : String) : Readable (.ident n) := by
  refine readable_atom (fun _ _ => rfl) (by simp [Word.name]) fun d => ?_
  rw [primary]
  refine .peek rfl ?_
  rintro ⟨_, span, _, raw⟩ ⟨⟩
  refine .second (P := (· ≠ .fatArrow)) (fun more hmore => hmore.1) fun s hs => ?_
  rw [if_neg hs]
  refine .advance (by rintro ⟨⟩) fun _ _ => ?_
  exact (returns_write _ _).imp fun id forms _ hid => hid

theorem readable_number {spelling : String} (h : (numberValue? spelling).isSome = true) : Readable
    (.number spelling) := by
  obtain ⟨v, hv⟩ := Option.isSome_iff_exists.1 h
  refine readable_atom (fun _ _ => rfl) (by simp) fun d => ?_
  rw [primary]
  refine .peek rfl ?_
  rintro ⟨_, span, _, raw⟩ ⟨⟩
  refine .advance (by rintro ⟨⟩) fun _ _ => ?_
  rw [hv]
  exact (returns_write _ _).imp fun id forms _ hid => ⟨v, hv, hid⟩

theorem readable_string (value : String) : Readable (.string value) := by
  refine readable_atom (fun _ _ => rfl) (by simp) fun d => ?_
  rw [primary]
  refine .peek rfl ?_
  rintro ⟨_, span, _, raw⟩ ⟨⟩
  refine .advance (by rintro ⟨⟩) fun _ _ => ?_
  exact (returns_write _ _).imp fun id forms _ hid => hid

theorem readable_bool (value : Bool) : Readable (.bool value) := by
  refine readable_atom (fun _ _ => rfl) (by cases value <;> decide) fun d => ?_
  rw [primary]
  refine .peek rfl ?_
  cases value <;>
  · rintro ⟨_, span, _, raw⟩ ⟨⟩
    refine .advance (by decide) fun _ _ => ?_
    exact (returns_write _ _).imp fun id forms _ hid => hid

theorem readable_null : Readable .null := by
  refine readable_atom (fun _ _ => rfl) (by decide) fun d => ?_
  rw [primary]
  refine .peek rfl ?_
  rintro ⟨_, span, _, raw⟩ ⟨⟩
  refine .advance (by decide) fun _ _ => ?_
  exact (returns_write _ _).imp fun id forms _ hid => hid

/-- What an operand goes on with. -/
theorem readable_postfix {e x : Expr} {ws : List Word} (hx : Readable x)
    (hbare : ∀ tail lead, e.bare tail lead = x.words 8 false lead ++ ws)
    (hfront : ∀ more, front (ws ++ more) ≠ .fatArrow ∧ front (ws ++ more) ≠ .colon)
    (h : ∀ᶠ d in atTop, ∀ i, Reads (Fact.none.and (x.fact i)) (postfixes (d + 1) i) ws (fun _ => True)
    (postfixes d) e.fact) :
    Readable e := by
  refine .of_bare fun power tail lead hle _ => ReadsAt.mono 8 ?_ hle (le_refl 8)
  obtain ⟨n, hx⟩ := hx 8 false lead (le_refl 8)
  refine ⟨n + 1, (h.and (eventually_shift hx 1)).mono fun d ⟨h, hx⟩ => ?_⟩
  rw [hbare, Nat.add_comm n 1, ← Nat.add_assoc]
  exact hx.trans (fun i => (h i).mono (fun _ h => h) fun _ _ => trivial) fun more _ => hfront more

theorem readable_member {x : Expr} {n : String} (hx : Readable x) : Readable (.member x n) := by
  refine readable_postfix hx (fun _ _ => rfl) (fun _ => ⟨nofun, nofun⟩) (.of_forall fun d i => ?_)
  rw [postfixes]
  refine .peekKind (fun _ _ => rfl) ?_
  refine .advance (by decide) fun _ _ => ?_
  refine .expect rfl (by decide) ?_
  rintro ⟨_, span, _, raw⟩ ⟨⟩
  refine .skip (fun _ _ => ⟨_, rfl⟩) fun _ => ?_
  refine .write fun id => ?_
  exact .done id fun _ h => ⟨i, h.2, h.1.2⟩

theorem Readable.expr {x : Expr} (hx : Readable x) (lead : Bool) : ReadsExpr (x.words 0 true lead) x.fact :=
  hx 0 true lead (Nat.zero_le 8)

theorem readable_call {f : Expr} {args : List Expr} (hf : Readable f) (hargs : ∀ x ∈ args, Readable x) :
    Readable (.call f args) := by
  refine readable_postfix hf (fun _ _ => rfl) (fun _ => ⟨nofun, nofun⟩) ?_
  refine ((eventually_forall_mem fun x hx => (hargs x hx).expr false).and (eventually_gt_atTop args.length)).mono
    fun d ⟨hitem, hlength⟩ i => ?_
  rw [postfixes, Expr.argWords_eq]
  refine .peekKind (fun _ _ => rfl) ?_
  refine .advance (by decide) fun _ _ => ?_
  have hitem : ∀ x ∈ args,
    Returns .none (Parser.expr d) (x.words 0 true false) (fun k => k = .comma ∨ k = .rparen) x.fact :=
    fun x hx => (hitem x hx).mono (fun _ h => h) (by rintro _ (rfl | rfl) <;> decide)
  have hfirst : ∀ x ∈ args, ∀ more, front (x.words 0 true false ++ more) ≠ .rparen := fun x _ more =>
    (starts_words x 0 true false more).1
  refine .bind (returns_items (separates_eat (by decide)) hitem hfirst hlength) (fun ids => ?_) fun _ _ => rfl
  refine .expect rfl (by decide) fun _ _ => ?_
  refine .skip (fun _ _ => ⟨_, rfl⟩) fun _ => ?_
  refine .writeFrom fun id => ?_
  exact .done id fun _ h => ⟨i, ids, h.2, h.1.1.2, Expr.argsAt_of_forall₂ h.1.2⟩

theorem readable_unary {op : UnaryOp} {x : Expr} (hx : Readable x) : Readable (.unary op x) := by
  refine .of_bare fun power tail lead _ henclosed => ?_
  have hle : power ≤ 7 := by simpa [Expr.isEnclosed] using henclosed
  refine ReadsAt.mono 7 ?_ hle (by decide)
  refine eventually_succ (hx 7 tail false (by decide)) fun d hx => ?_
  rw [unary]
  refine .peek rfl ?_
  cases op <;>
  · rintro ⟨_, span, _, raw⟩ ⟨⟩
    refine .advance (by decide) fun _ _ => ?_
    refine .bind' hx.under fun i => ?_
    exact (returns_writeFrom _ _).imp fun id forms h hid => ⟨i, hid, h.2⟩

theorem readsAt_power (op : BinaryOp) : ReadsAt op.power tail ws fact ↔ ReadsBinary op.power tail ws fact := by
  cases op <;> rfl

theorem token_not_mem (op : BinaryOp) : op.token ∉ [Kind.eof, .dot, .lparen, .fatArrow, .colon] := by
  cases op <;> decide

theorem readable_binary {op : BinaryOp} {x y : Expr} (hx : Readable x) (hy : Readable y) : Readable
    (.binary op x y) := by
  have hop : op.power ≤ 6 := by cases op <;> decide
  refine .of_bare fun power tail lead _ henclosed => ?_
  have hle : power ≤ op.power := by simpa [Expr.isEnclosed] using henclosed
  refine ReadsAt.mono op.power ?_ hle (by omega)
  rw [readsAt_power]
  intro p hp
  obtain ⟨n, hx⟩ := (readsAt_power op).1 (hx op.power false lead (by omega)) p hp
  refine ⟨n + 1, (((hy _ tail false (by omega)).returns hop).and (eventually_shift hx 1)).mono fun d ⟨hy, hx⟩ => ?_⟩
  rw [Nat.add_comm n 1, ← Nat.add_assoc]
  refine hx.trans (fun i => ?_) fun more _ => ?_
  · rw [binaryRest]
    refine .peekKind (k := op.token) (fun _ _ => rfl) ?_
    simp only [BinaryOp.ofToken?_token, if_neg (Nat.not_lt.2 hp)]
    refine .advance (fun h => token_not_mem op (List.mem_cons.2 (.inl h))) fun _ _ => ?_
    refine .bind' hy.under fun j => ?_
    refine .skip (fun _ _ => ⟨_, rfl⟩) fun _ => ?_
    refine .writeFrom fun id => ?_
    exact .done id fun _ h => ⟨i, j, h.2, h.1.1.2, h.1.2⟩
  · refine ⟨fun h => token_not_mem op (List.mem_cons_of_mem _ h), fun op' hop' => ?_⟩
    obtain rfl := Option.some_injective _ ((BinaryOp.ofToken?_token op).symm.trans hop')
    exact le_refl _

/-- A value is assigned to a name or a member. -/
theorem readable_assign {x y : Expr} (htarget : x.isTarget = true) (hx : Readable x) (hy : Readable y) :
    Readable (.assign x y) := by
  refine .of_bare fun power tail lead _ henclosed => ?_
  obtain rfl : power = 0 := by simpa [Expr.isEnclosed] using henclosed
  have hwords : x.words 8 false lead = x.words 1 false lead := by cases x <;> first | rfl | cases htarget
  refine eventually_succ ((ReadsBinary.returns (hx 1 false lead (by decide)) (le_refl 1)).and (hy.expr false))
    fun d h => ?_
  obtain ⟨hx, hy⟩ := h
  rw [Parser.expr, Expr.bare, ← Expr.words, hwords]
  refine .bind hx (fun i => ?_) fun _ _ => ⟨⟨by simp [front, Word.symbol], by rintro _ ⟨⟩⟩, by rintro _ ⟨⟩⟩
  refine .isAt (b := true) (fun _ _ => rfl) ?_
  refine .advance (by decide) fun _ _ => ?_
  refine .formOf (P := fun f => (∃ n, f = .ident n) ∨ ∃ i n, f = .member i n) (fun forms h => ?_) fun f hf => ?_
  · cases x with
    | ident n => exact ⟨_, h.2, .inl ⟨n, rfl⟩⟩
    | member x n =>
      obtain ⟨i, h, -⟩ := h.2
      exact ⟨_, h, .inr ⟨i, n, rfl⟩⟩
    | _ => cases htarget
  · have hread : Returns (Fact.none.and (x.fact i)) (do
        let rhs ← Parser.expr d
        writeFrom (.assign i rhs) (← spanOf i)) (y.words 0 true false) (· ∈ closers) (Expr.assign x y).fact := by
      refine .bind' hy.under fun j => ?_
      refine .skip (fun _ _ => ⟨_, rfl⟩) fun _ => ?_
      exact (returns_writeFrom _ _).imp fun id forms h hid => ⟨i, j, hid, h.1.2, h.2⟩
    obtain ⟨n, rfl⟩ | ⟨i, n, rfl⟩ := hf <;> exact hread

/-! ### Arrow functions -/

section Arrow

variable {params : List (String × Option TypeExpr)} {result : Option TypeExpr} {body : Expr}

theorem returns_arrowRest {pre : Fact} {ids : List Nat} {start : Source.Span} {d : Nat}
    (hparams : ∀ forms, pre.holds forms → TypeExpr.ParamsAt forms params ids)
    (hresult : Returns .none (ascription? d) (result.elim [] fun t => .symbol .colon :: t.words) (· ≠ .colon)
      (TypeExpr.ascribedFact result))
    (hbody : Returns .none (Parser.expr d) (body.words 0 true true) (· ∈ closers) body.fact) :
    Returns pre (arrowRest (d + 1) start ids)
      ((result.elim [] fun t => .symbol .colon :: t.words) ++ .symbol .fatArrow :: body.words 0 true true)
        (· ∈ closers)
      (Expr.arrow params result body).fact := by
  rw [arrowRest]
  refine .bind hresult.under (fun r => ?_) fun _ _ => by rintro ⟨⟩
  refine .expect rfl (by decide) fun _ _ => ?_
  refine .isAt (b := false) (fun more _ => decide_eq_false ((starts_words body 0 true true more).2 rfl)) ?_
  refine .bind' hbody.under fun b => ?_
  refine (returns_writeFrom _ _).imp fun id forms h hid => ⟨ids, r, b, hid, hparams _ h.1.1, h.1.2, h.2⟩

theorem readable_arrow (hparams : TypeExpr.ParamsProper params) (hresult : ∀ t ∈ result, t.IsProper)
    (hbody : Readable body) :
    Readable (.arrow params result body) := by
  refine .of_bare fun power tail lead _ henclosed => ?_
  obtain ⟨rfl, hle⟩ : tail = true ∧ power ≤ 7 := by simpa [Expr.isEnclosed] using henclosed
  refine ReadsAt.mono 7 ?_ hle (by decide)
  have hresult := returns_ascription fun t ht => returns_type t (hresult t ht)
  have hprimary : ∀ᶠ d in atTop,
    Returns .none (primary d) ((Expr.arrow params result body).bare true lead) (· ∈ closers)
      (Expr.arrow params result body).fact := by
    have hps := eventually_shift (returns_params (returns_ps params hparams)) 1
    refine eventually_add 2 ((hps.and hresult).and (hbody.expr true)) fun d h => ?_
    obtain ⟨⟨hps, hresult⟩, hbody⟩ := h
    rw [Expr.bare, primary]
    unfold Expr.signature
    split
    · refine .peek rfl ?_
      rintro ⟨_, span, _, raw⟩ ⟨⟩
      refine .second (P := (· = .fatArrow)) (fun _ _ => rfl) fun s hs => ?_
      rw [if_pos hs]
      refine .advance (by rintro ⟨⟩) fun _ _ => ?_
      refine .write fun id => ?_
      refine returns_arrowRest (fun forms h => ?_) hresult hbody
      exact ⟨id, [], rfl, h.2, rfl⟩
    · rw [List.append_assoc]
      refine .peek rfl ?_
      rintro ⟨_, span, _, raw⟩ ⟨⟩
      refine .isArrowAhead (b := true) (.commas (Balanced.params_words params)) (fun _ _ => ?_) ?_
      · cases result <;> rfl
      · refine .bind hps.under (fun ids => ?_) fun _ _ => trivial
        exact returns_arrowRest (fun forms h => TypeExpr.paramsAt_of_forall₂ h.2) hresult hbody
  have hhead : ∃ w, ((Expr.arrow params result body).bare true lead).head? = some w ∧
    w.kind ∉ [Kind.minus, .bang, .plus] := by
    rw [Expr.bare]
    unfold Expr.signature
    split
    · exact ⟨_, rfl, by simp [Word.name]⟩
    · exact ⟨_, rfl, by simp [Word.symbol]⟩
  obtain ⟨w, hw, hkind⟩ := hhead
  exact ReadsUnary.of_reads (n := 1) (hprimary.mono fun d h => reads_unary hw hkind h)

end Arrow

/-! ### Objects -/

/-- After a property come the others, behind a comma. -/
theorem returns_moreProperties {n : String} {x : Expr} {props : List (String × Expr)}
    {seen : List String} {d p : Nat} {pre : Fact}
    (h : Returns .none (properties d seen) (Word.commas (Expr.propWords props)) (· = .rbrace)
    (Expr.propsFact props)) (hp : ∀ forms, pre.holds forms → ∃ i, forms p = some (.property n i) ∧ x.IsAt forms i) :
    Returns pre (do
      if ← eat .comma then
        return p :: (← properties d seen)
      return [p]) (Word.moreCommas (Expr.propWords props)) (· = .rbrace) (Expr.propsFact ((n, x) :: props)) := by
  cases props with
  | nil =>
    refine .eatNot (fun more (hmore : front more = .rbrace) => ?_) ?_
    · rw [show Word.moreCommas (Expr.propWords []) = [] from rfl, List.nil_append, hmore]
      decide
    · refine .pure [p] fun forms hforms => ?_
      obtain ⟨i, hi, hx⟩ := hp forms hforms
      exact ⟨p, i, [], rfl, hi, hx, rfl⟩
  | cons y ys =>
    refine .eat rfl (by decide) ?_
    refine .bind' h.under fun ids => ?_
    refine .pure (p :: ids) fun forms hforms => ?_
    obtain ⟨i, hi, hx⟩ := hp forms hforms.1
    exact ⟨p, i, ids, rfl, hi, hx, hforms.2⟩

theorem returns_properties : ∀ (props : List (String × Expr)) (seen : List String), (∀ p ∈ props, Readable p.2) →
    (props.map (·.1)).Nodup → (∀ p ∈ props, p.1 ∉ seen) →
    ∀ᶠ d in atTop, Returns .none (properties d seen) (Word.commas (Expr.propWords props)) (· = .rbrace)
      (Expr.propsFact props)
  | [], seen, _, _, _ => by
    refine eventually_of_succ fun d => ?_
    rw [properties]
    refine .isAt (b := true) (fun more hmore => decide_eq_true hmore) ?_
    exact .pure _ fun _ _ => rfl
  | (n, x) :: props, seen, hprops, hnodup, hseen => by
    obtain ⟨hx, hprops⟩ := List.forall_mem_cons.1 hprops
    obtain ⟨hn, hseen⟩ := List.forall_mem_cons.1 hseen
    obtain ⟨hfresh, hnodup⟩ := List.nodup_cons.1 hnodup
    have hseen : ∀ p ∈ props, p.1 ∉ n :: seen := fun p hp h => by
      obtain h | h := List.mem_cons.1 h
      · exact hfresh (List.mem_map.2 ⟨p, hp, h⟩)
      · exact hseen p hp h
    have ih := returns_properties props (n :: seen) hprops hnodup hseen
    refine eventually_succ ((hx.expr false).and ih) fun d h => ?_
    obtain ⟨hx, ih⟩ := h
    rw [properties, Expr.propWords, Word.commas_cons]
    refine .isAt (b := false) (fun _ _ => rfl) ?_
    refine .expect rfl (by decide) ?_
    rintro ⟨_, span, _, raw⟩ ⟨⟩
    refine .eat rfl (by decide) ?_
    refine .bind hx.under (fun i => ?_) fun more (hmore : front more = .rbrace) => ?_
    · dsimp only
      rw [if_neg (by simpa using hn)]
      refine .writeFrom fun p => ?_
      exact returns_moreProperties ih fun forms h => ⟨i, h.2, h.1.2⟩
    · cases props with
      | nil => simp [Expr.propWords, Word.moreCommas, hmore, closers]
      | cons => simp [Expr.propWords, Word.moreCommas, front, Word.symbol, closers]

theorem readable_object {props : List (String × Expr)} (hprops : ∀ p ∈ props, Readable p.2)
    (hnodup : (props.map (·.1)).Nodup) : Readable (.object props) := by
  refine .of_bare fun power tail lead hle _ => ReadsAt.mono 8 ?_ hle (le_refl 8)
  refine .of_primary rfl (by decide) (eventually_succ (returns_properties props [] hprops hnodup fun _ _ => by simp)
    fun d h => ?_)
  rw [primary]
  refine .peek rfl ?_
  rintro ⟨_, span, _, raw⟩ ⟨⟩
  refine .advance (by decide) fun _ _ => ?_
  refine .bind h.under (fun ids => ?_) fun _ _ => rfl
  refine .expect rfl (by decide) fun _ _ => ?_
  exact (returns_writeFrom _ _).imp fun id forms h hid => ⟨ids, hid, h.2⟩

/-! ### All expressions -/

mutual

/-- Every expression is read back. -/
theorem readable : ∀ e : Expr, e.IsProper → Readable e
  | .ident n, _ => readable_ident n
  | .number _, ⟨_, hv⟩ => readable_number hv
  | .string value, _ => readable_string value
  | .bool value, _ => readable_bool value
  | .null, _ => readable_null
  | .object props, ⟨hnodup, hprops⟩ => readable_object (readable_props props hprops) hnodup
  | .member x _, ⟨hx, _⟩ => readable_member (readable x hx)
  | .call f args, ⟨hf, hargs⟩ => readable_call (readable f hf) (readable_args args hargs)
  | .unary _ x, hx => readable_unary (readable x hx)
  | .binary _ x y, ⟨hx, hy⟩ => readable_binary (readable x hx) (readable y hy)
  | .assign x y, ⟨htarget, hx, hy⟩ => readable_assign htarget (readable x hx) (readable y hy)
  | .arrow _ _ body, ⟨hparams, hresult, hbody⟩ => readable_arrow hparams hresult (readable body hbody)
  termination_by structural e => e

theorem readable_props : ∀ props : List (String × Expr), Expr.PropsProper props → ∀ p ∈ props, Readable p.2
  | [], _, _, hp => nomatch hp
  | (n, x) :: props, ⟨_, hx, hprops⟩, p, hp => by
    obtain rfl | hp := List.mem_cons.1 hp
    · exact readable x hx
    · exact readable_props props hprops p hp
  termination_by structural props => props

theorem readable_args : ∀ args : List Expr, Expr.ArgsProper args → ∀ x ∈ args, Readable x
  | [], _, _, hx => nomatch hx
  | x :: args, ⟨hproper, hargs⟩, y, hy => by
    obtain h | hy := List.mem_cons.1 hy
    · exact h ▸ readable x hproper
    · exact readable_args args hargs y hy
  termination_by structural args => args

end

end TypedScript.Ast.Parser
