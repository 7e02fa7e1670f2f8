import TypedScript.Proofs.Ast.ExprReading
import TypedScript.Proofs.Ast.Expression
import TypedScript.Proofs.Token.Spans

/-!
# Writing and parsing

An expression is written as words with a blank after each. What it is written as in a constant is parsed as that
expression, and nothing is wrong with it.

* `scans_render`: words are read from a text in which a blank follows each of them.
* `spelled_words`: the words of an expression have spellings.
* `Expr.constant`: the text of a constant with the expression as its value.
* `parse_constant`: parsing it yields the expression; `parseFile_constant` adds what is refused.
-/

namespace TypedScript.Ast

open TypedScript.Token TypedScript.Text

namespace Word

def spelling (w : Word) : List Char :=
  match w.kind with
  | .string => quoted '"' w.text.toList
  | .ident | .number => w.text.toList
  | k => k.name.toList

/-- Words with a blank after each. -/
def render (ws : List Word) : List Char := ws.flatMap fun w => w.spelling ++ [' ']

/-- The word is read from its spelling. -/
def Spelled (w : Word) : Prop := Spells w.spelling w.kind w.text

end Word

/-! ### Scanning -/

/-- The bytes are read as the words, and nothing is wrong with them. -/
def Scans (bytes : List UInt8) (ws : List Word) : Prop :=
  ∀ file off, (scanAll file off bytes).1.map Word.ofToken = ws ++ [.symbol .eof] ∧ (scanAll file off bytes).2 = []

theorem trivia_blank (bytes : List UInt8) : trivia (32 :: bytes) = (trivia bytes).after 1 := by
  rw [trivia.eq_def]
  rfl

/-- A blank in front only shifts what is scanned. -/
theorem scan_blank (file off : Nat) (bytes : List UInt8) : scan file off (32 :: bytes) = scan file
    (off + 1) bytes := by
  have hoff : off + ((trivia bytes).length + 1) = off + 1 + (trivia bytes).length := by omega
  have hreport (start : Nat) : report file (off + 1 + (trivia bytes).length - ((trivia bytes).length + 1))
      (.unterminatedComment, start + 1, (trivia bytes).length + 1) =
        report file (off + 1 + (trivia bytes).length - (trivia bytes).length)
          (.unterminatedComment, start, (trivia bytes).length) := by
    unfold report
    congr 2 <;>
    · dsimp only
      omega
  simp only [scan, trivia_blank, Trivia.after, List.drop_succ_cons, hoff]
  cases (trivia bytes).unclosed with
  | none => rfl
  | some start => simp only [Option.map_some, Option.toList_some, List.map_cons, List.map_nil, hreport]

theorem scanAll_blank (file off : Nat) (bytes : List UInt8) : scanAll file off (32 :: bytes) = scanAll file
    (off + 1) bytes := by
  have hdrop : (32 :: bytes).drop (trivia (32 :: bytes)).length = bytes.drop (trivia bytes).length := by
    rw [trivia_blank]
    rfl
  rcases hrest : bytes.drop (trivia bytes).length with _ | ⟨b, rest⟩
  · rw [scanAll_of_nil hrest, scanAll_of_nil (hdrop.trans hrest), scan_blank]
  · rw [scanAll_of_cons hrest, scanAll_of_cons (hdrop.trans hrest), scan_blank]

theorem Scans.blank {bytes : List UInt8} {ws : List Word} (h : Scans bytes ws) : Scans (32 :: bytes) ws := by
  intro file off
  rw [scanAll_blank]
  exact h file (off + 1)

theorem scans_nil : Scans [] [] := fun file off => by
  have htrivia : trivia [] = ⟨0, none⟩ := by
    rw [trivia.eq_def]
  rw [scanAll_of_nil (by rw [htrivia]; rfl), scan, htrivia]
  exact ⟨rfl, rfl⟩

theorem Scans.word {bytes : List UInt8} {ws : List Word} {w : Word} (hw : w.Spelled) (h : Scans (32 :: bytes) ws) :
    Scans (bytesOf w.spelling ++ 32 :: bytes) (w :: ws) := by
  intro file off
  obtain ⟨b, bs, hb, hspells⟩ := hw
  obtain ⟨htrivia, hlexeme⟩ := hspells bytes
  rw [hb, List.cons_append, scanAll_of_cons (b := b) (by rw [htrivia]; rfl), hlexeme, List.drop_left]
  obtain ⟨hwords, hdiagnostics⟩ := h file (scan file off (b :: (bs ++ 32 :: bytes))).off
  rw [List.map_cons, hwords, hdiagnostics, List.append_nil, scan, htrivia]
  simp only [List.drop_zero, hlexeme, List.map_nil]
  exact ⟨rfl, rfl⟩

/-- All of the words are read from their spellings. -/
def Spelled (ws : List Word) : Prop := ∀ w ∈ ws, w.Spelled

/-- Words are read from a text in which a blank follows each of them. -/
theorem scans_render {ws : List Word} (h : Spelled ws) : Scans (bytesOf (Word.render ws)) ws := by
  induction ws with
  | nil => exact scans_nil
  | cons w ws ih =>
    obtain ⟨hw, h⟩ := List.forall_mem_cons.1 h
    have hbytes : bytesOf (Word.render (w :: ws)) = bytesOf w.spelling ++ 32 :: bytesOf (Word.render ws) := by
      rw [Word.render, List.flatMap_cons, bytesOf_append, bytesOf_append, bytesOf_cons,
        utf8EncodeChar_ascii (by decide),
        List.append_assoc]
      rfl
    rw [hbytes]
    exact .word hw (ih h).blank

/-! ### The words of expressions -/

theorem Word.Spelled.name {s : String} (h : isName s = true) : (Word.name s).Spelled := spells_name h

theorem Word.Spelled.keyword {k : Kind} (hk : k ∈ Kind.keywords) : (Word.keyword k).Spelled := by
  have hspelling : ∀ k ∈ Kind.keywords, (Word.keyword k).spelling = k.name.toList := by decide
  rw [Word.Spelled, hspelling k hk]
  exact spells_keyword hk

theorem Word.Spelled.symbol {k : Kind} (hk : k ∈ Kind.symbols) : (Word.symbol k).Spelled := by
  have hspelling : ∀ k ∈ Kind.symbols, (Word.symbol k).spelling = k.name.toList := by decide
  rw [Word.Spelled, hspelling k hk]
  exact spells_symbol hk

namespace Spelled

variable {ws ws' : List Word} {w : Word}

theorem nil : Spelled [] := nofun

theorem append (h : Spelled ws) (h' : Spelled ws') : Spelled (ws ++ ws') := List.forall_mem_append.2 ⟨h, h'⟩

theorem cons (hw : w.Spelled) (h : Spelled ws) : Spelled (w :: ws) := List.forall_mem_cons.2 ⟨hw, h⟩

theorem parens (h : Spelled ws) : Spelled (Word.parens ws) :=
  cons (.symbol (by decide)) (h.append (cons (.symbol (by decide)) nil))

theorem braces (h : Spelled ws) : Spelled (Word.braces ws) :=
  cons (.symbol (by decide)) (h.append (cons (.symbol (by decide)) nil))

theorem moreCommas : ∀ {wss : List (List Word)}, (∀ ws ∈ wss, Spelled ws) → Spelled (Word.moreCommas wss)
  | [], _ => nil
  | _ :: _, h =>
    cons (.symbol (by decide)) ((List.forall_mem_cons.1 h).1.append (moreCommas (List.forall_mem_cons.1 h).2))

theorem commas : ∀ {wss : List (List Word)}, (∀ ws ∈ wss, Spelled ws) → Spelled (Word.commas wss)
  | [], _ => nil
  | _ :: _, h => (List.forall_mem_cons.1 h).1.append (moreCommas (List.forall_mem_cons.1 h).2)

mutual

theorem type : ∀ t : TypeExpr, t.IsProper → Spelled t.words
  | .name n, h => by
    rw [TypeExpr.words]
    split
    · exact cons (.keyword (by decide)) nil
    · exact cons (.name (h.resolve_left ‹_›)) nil
  | .object fields, h => braces (commas (fields_words fields h))
  | .func params result, ⟨hparams, hresult⟩ =>
    (parens (commas (params_words params hparams))).append (cons (.symbol (by decide)) (type result hresult))
  termination_by structural t => t

theorem fields_words : ∀ fields, TypeExpr.FieldsProper fields → ∀ ws ∈ TypeExpr.fieldWords fields, Spelled ws
  | [], _, _, hws => nomatch hws
  | (n, t) :: fields, ⟨hn, ht, hfields⟩, ws, hws => by
    obtain rfl | hws := List.mem_cons.1 hws
    · exact cons (.name hn) (cons (.symbol (by decide)) (type t ht))
    · exact fields_words fields hfields ws hws
  termination_by structural fields => fields

theorem params_words : ∀ params, TypeExpr.ParamsProper params → ∀ ws ∈ TypeExpr.paramWords params, Spelled ws
  | [], _, _, hws => nomatch hws
  | (n, none) :: params, ⟨hn, hparams⟩, ws, hws => by
    obtain rfl | hws := List.mem_cons.1 hws
    · exact cons (.name hn) nil
    · exact params_words params hparams ws hws
  | (n, some t) :: params, ⟨hn, ht, hparams⟩, ws, hws => by
    obtain rfl | hws := List.mem_cons.1 hws
    · exact cons (.name hn) (cons (.symbol (by decide)) (type t ht))
    · exact params_words params hparams ws hws
  termination_by structural params => params

end

theorem signature {params : List (String × Option TypeExpr)} {result : Option TypeExpr}
    (hparams : TypeExpr.ParamsProper params) (hresult : ∀ t ∈ result, t.IsProper) : Spelled
    (Expr.signature params result) := by
  unfold Expr.signature
  split
  · exact cons (.name hparams.1) nil
  · refine (parens (commas (params_words params hparams))).append ?_
    cases result with
    | none => exact nil
    | some t => exact cons (.symbol (by decide)) (type t (hresult t rfl))

theorem enclose {e : Expr} {power : Nat} {tail lead : Bool} {bare : Bool → Bool → List Word}
    (h : ∀ tail lead, Spelled (bare tail lead)) : Spelled (e.enclose power tail lead bare) := by
  unfold Expr.enclose
  split
  · exact parens (h _ _)
  · exact h _ _

mutual

theorem bare : ∀ e : Expr, e.IsProper → ∀ tail lead, Spelled (e.bare tail lead)
  | .ident _, hn, _, _ => cons (.name hn) nil
  | .number spelling, ⟨h, _⟩, _, _ => cons (by simpa [Word.Spelled, Word.spelling] using spells_number h) nil
  | .string value, _, _, _ => cons (by simpa [Word.Spelled, Word.spelling] using spells_string value.toList) nil
  | .bool value, _, _, _ => cons (.keyword (by cases value <;> decide)) nil
  | .null, _, _, _ => cons (.keyword (by decide)) nil
  | .object props, ⟨_, hprops⟩, _, _ => braces (commas (props_words props hprops))
  | .member x n, ⟨hx, hn⟩, _, lead =>
      (enclose (bare x hx)).append (cons (.symbol (by decide)) (cons (.name hn) nil))
  | .call f args, ⟨hf, hargs⟩, _, lead => (enclose (bare f hf)).append (parens (commas (args_words args hargs)))
  | .unary op x, hx, tail, _ => cons (.symbol (by cases op <;> decide)) (enclose (bare x hx))
  | .binary op x y, ⟨hx, hy⟩, tail, lead =>
    (enclose (bare x hx)).append (cons (.symbol (by cases op <;> decide)) (enclose (bare y hy)))
  | .assign x y, ⟨_, hx, hy⟩, _, lead =>
      (enclose (bare x hx)).append (cons (.symbol (by decide)) (enclose (bare y hy)))
  | .arrow _ _ body, ⟨hparams, hresult, hbody⟩, _, _ =>
    (signature hparams hresult).append (cons (.symbol (by decide)) (enclose (bare body hbody)))
  termination_by structural e => e

theorem props_words : ∀ props, Expr.PropsProper props → ∀ ws ∈ Expr.propWords props, Spelled ws
  | [], _, _, hws => nomatch hws
  | (n, x) :: props, ⟨hn, hx, hprops⟩, ws, hws => by
    obtain rfl | hws := List.mem_cons.1 hws
    · exact cons (.name hn) (cons (.symbol (by decide)) (enclose (bare x hx)))
    · exact props_words props hprops ws hws
  termination_by structural props => props

theorem args_words : ∀ args, Expr.ArgsProper args → ∀ ws ∈ Expr.argWords args, Spelled ws
  | [], _, _, hws => nomatch hws
  | x :: args, ⟨hx, hargs⟩, ws, hws => by
    obtain rfl | hws := List.mem_cons.1 hws
    · exact enclose (bare x hx)
    · exact args_words args hargs ws hws
  termination_by structural args => args

end

end Spelled

theorem spelled_words {e : Expr} (h : e.IsProper) (power : Nat) (tail lead : Bool) : Spelled
    (e.words power tail lead) :=
  Spelled.enclose (Spelled.bare e h)

/-! ### Constants -/

open Filter TypedScript.Source

namespace Expr

/-- The words of the declaration of a constant. -/
def constantWords (name : String) (e : Expr) : List Word :=
  .keyword .kwConst :: .name name :: .symbol .assign :: (e.words 0 true false ++ [.symbol .semicolon])

/-- The text of the declaration of a constant. -/
def constant (name : String) (e : Expr) : String := String.ofList (Word.render (constantWords name e))

/-- The node declares the constant. -/
def constantFact (name : String) (e : Expr) (id : Nat) : Fact where
  holds forms := ∃ i, forms id = some (.varDecl name true none i) ∧ e.IsAt forms i
  mono := fun hle ⟨i, hid, h⟩ => ⟨i, hle _ _ hid, isAt_mono hle e i h⟩

end Expr

namespace Parser

theorem returns_constant {name : String} {e : Expr} (he : e.IsProper) :
    ∀ᶠ d in atTop, Returns .none (stmt d) (e.constantWords name) (fun _ => True) (e.constantFact name) := by
  have hnone : ∀ᶠ d in atTop, Returns .none (ascription? d) [] (· ≠ .colon) (TypeExpr.ascribedFact none) :=
    returns_ascription (t := none) (by rintro _ ⟨⟩)
  refine eventually_add 2 (hnone.and ((readable e he).expr false)) fun d h => ?_
  obtain ⟨hnone, he⟩ := h
  rw [stmt]
  refine .peek rfl ?_
  rintro ⟨_, kwSpan, _, raw⟩ ⟨⟩
  refine .advance (by decide) fun _ _ => ?_
  rw [varDecl]
  refine .expect rfl (by decide) ?_
  rintro ⟨_, span, _, raw⟩ ⟨⟩
  refine .before hnone.under (fun r => ?_) fun _ _ => by rintro ⟨⟩
  refine .eat rfl (by decide) ?_
  refine .bind he.under (fun i => ?_) fun _ _ => by simp [front, Word.symbol, closers]
  refine .take (v := true) (by decide) (fun i s hs => ?_) ?_
  · rw [endStatement, bind_apply, eat_true (by rw [kind_peek, hs]; rfl)]
    rfl
  · refine (returns_writeFrom _ _).imp fun id forms h hid => ⟨i, ?_, h.2⟩
    obtain rfl : r = none := h.1.2
    exact hid

/-- One statement, and then the end. -/
theorem statements_of_returns {p : Parser Nat} {ws : List Word} {fact : Nat → Fact} {i : Input} {s : State}
    (h : Returns .none p ws (fun _ => True) fact) (hs : s.words = ws ++ [.symbol .eof]) (hfront : front ws ≠ .eof)
    (henough : i.enough s.errors = false) (fuel : Nat) :
    ∃ d s', statements [.eof] p (fuel + 2) i s = (some [d], s') ∧ After s s' [.symbol .eof] ∧
      (fact d).holds s'.forms := by
  obtain ⟨d, s', hrun, hafter, hd⟩ := h i s _ trivial hs trivial
  refine ⟨d, s', ?_, hafter, hd⟩
  have hkind : s.peek.kind ≠ .eof := by
    rw [kind_peek, hs]
    cases ws with
    | nil => exact absurd rfl hfront
    | cons => exact hfront
  have hkind' : s'.peek.kind = .eof := by
    rw [kind_peek, hafter.words]
    rfl
  have hstop : statements [.eof] p (fuel + 1) i s' = (some [], s') := by
    simp [statements, bind_apply, isAtAny, enough, hkind']
    rfl
  have hgo : ([Kind.eof].contains s.peek.kind || i.enough s.errors) = false := by simp [henough, hkind]
  rw [statements]
  simp only [bind_apply, isAtAny, enough, hgo, Bool.false_eq_true, if_false, get, attempt, hrun]
  rw [show (pure d : Parser Nat) i s' = (some d, s') from rfl]
  simp only [bind_apply, hstop]
  rfl

/-- A file of one statement is read. -/
theorem module_of_returns {ws : List Word} {fact : Nat → Fact} {i : Input} {s : State}
    (h : ∀ᶠ d in atTop, Returns .none (stmt d) ws (fun _ => True) fact) (hs : s.words = ws ++ [.symbol .eof])
    (hfront : front ws ≠ .eof) (henough : i.enough s.errors = false) :
    ∃ root d s', Parser.module i s = (some root, s') ∧ s'.diagnostics = s.diagnostics ∧
      s'.forms root = some (.module [d]) ∧ (fact d).holds s'.forms := by
  obtain ⟨depth, h, hdepth⟩ := (h.and (eventually_ge_atTop (depthFor s.rest.length))).exists
  have hlarge : 2 ≤ depth := Nat.le_trans (by unfold depthFor; omega) hdepth
  obtain ⟨fuel, rfl⟩ : ∃ fuel, depth = fuel + 2 := ⟨depth - 2, by omega⟩
  obtain ⟨d, s', hrun, hafter, hd⟩ := statements_of_returns h hs hfront henough fuel
  have hwrite : Returns .none (writeFrom (.module [d]) s.peek.span) [] (fun _ => True) fun id =>
    .form id (.module [d]) :=
    returns_writeFrom _ _
  obtain ⟨root, s'', hwrite, hafter', hroot⟩ := hwrite i s' _ trivial rfl trivial
  refine ⟨root, d, s'', ?_, by rw [hafter'.diagnostics, hafter.diagnostics], hroot, (fact d).mono hafter'.forms hd⟩
  rw [← module_eq_of_le hdepth, moduleFrom, bind_apply]
  simp only [peek, bind_apply, hrun, hwrite]
  rfl

end Parser

/-- However the words of a constant are laid out, they are parsed as the constant, and nothing is reported. -/
theorem parse_of_scans {name : String} {e : Expr} (he : e.IsProper) {file : File}
    (hscans : Scans file.content (e.constantWords name)) (maxErrors : Nat) :
    (parse file maxErrors).diagnostics = [] ∧
      ∃ d i, (parse file maxErrors).tree.form? (parse file maxErrors).tree.root = some (.module [d]) ∧
        (parse file maxErrors).tree.form? d = some (.varDecl name true none i) ∧
        e.IsAt (parse file maxErrors).tree.form? i := by
  obtain ⟨hwords, hlexical⟩ := hscans file.id 0
  obtain ⟨root, d, s', hrun, hdiagnostics, hroot, i, hd, hi⟩ := Parser.module_of_returns (i := ⟨file, maxErrors⟩)
    (s := { rest := (ofFile file).1 }) (Parser.returns_constant he) hwords nofun (by simp [Parser.Input.enough])
  have hparsed : parse file maxErrors =
      ⟨Tree.link { file := file.id, nodes := s'.nodes, root }, (ofFile file).2 ++ s'.diagnostics⟩ := by
    rw [parse]
    simp only [hrun, Option.getD_some]
  rw [hparsed]
  exact ⟨by rw [hdiagnostics, List.append_nil]; exact hlexical, d, i, hroot, hd, hi⟩

theorem scans_constant {name : String} {e : Expr} (hname : isName name = true) (he : e.IsProper) :
    Scans (encode (e.constant name)) (e.constantWords name) := by
  rw [encode_eq, Expr.constant, String.toList_ofList]
  exact scans_render (.cons (.keyword (by decide)) (.cons (.name hname) (.cons (.symbol (by decide))
    ((spelled_words he 0 true false).append (.cons (.symbol (by decide)) .nil)))))

/-- The text is refused only if its offsets or the numbers of its nodes are too large for words. -/
theorem parseFile_constant {name : String} {e : Expr} (hname : isName name = true) (he : e.IsProper) {file : File}
    (hfile : file.content = encode (e.constant name)) {maxErrors : Nat} (hfits : Fits file maxErrors) :
    ∃ parsed, parseFile file maxErrors = .ok parsed ∧ parsed.diagnostics = [] ∧
      ∃ d i, parsed.tree.form? parsed.tree.root = some (.module [d]) ∧
        parsed.tree.form? d = some (.varDecl name true none i) ∧ e.IsAt parsed.tree.form? i :=
  ⟨_, parseFile_of_fits hfits, parse_of_scans he (hfile ▸ scans_constant hname he) maxErrors⟩

end TypedScript.Ast
