import TypedScript.Proofs.Token.Spans

/-!
# Tokens cover a file

The bytes of a file are its tokens with gaps between them, and no gap could be longer. Whatever is reported is
about a token, or about a comment that has no end.

In a gap there are blanks and comments and nothing else. A comment to the end of the line leaves the line feed
alone, a block comment ends with the first `*/` in it, and one that has none takes all that is left of the file.

* `Gap`: bytes between two tokens.
* `skips_trivia`: what is passed over in front of a token is a gap, and no part of a gap is left behind.
* `Tiled`: bytes with their tokens, and what was reported of them.
* `tiled_ofFile`: the tokens of a file tile it.
-/

namespace TypedScript.Token

open TypedScript.Source TypedScript.Text

/-! ### Gaps -/

/-- What a comment to the end of the line starts with. -/
def lineOpening : List UInt8 := encode "//"

/-- What a block comment starts with. -/
def blockOpening : List UInt8 := encode "/*"

/-- What a block comment ends with. -/
def blockClosing : List UInt8 := encode "*/"

theorem lineOpening_eq : lineOpening = [47, 47] := by decide

theorem blockOpening_eq : blockOpening = [47, 42] := by decide

theorem blockClosing_eq : blockClosing = [42, 47] := by decide

/-- Blanks and comments in front of the rest of a file. A comment to the end of the line has a line feed behind
it, or the end of the file. -/
inductive Gap : List UInt8 → List UInt8 → Prop
  | empty (rest : List UInt8) : Gap [] rest
  | blank {b : UInt8} {gap rest : List UInt8} : isBlank b = true → Gap gap rest → Gap (b :: gap) rest
  | line {body gap rest : List UInt8} : lineFeed ∉ body → (∀ b ∈ (gap ++ rest).head?, b = lineFeed) → Gap gap rest →
    Gap (lineOpening ++ body ++ gap) rest
  | block {body gap rest : List UInt8} : ¬ blockClosing <:+: body → Gap gap rest →
    Gap (blockOpening ++ body ++ blockClosing ++ gap) rest

/-- Whether a blank or a comment is at the head. -/
def OpensGap (bytes : List UInt8) : Prop :=
  (∃ b ∈ bytes.head?, isBlank b = true) ∨ lineOpening <+: bytes ∨ blockOpening <+: bytes

/-- A measure of the bytes that separate tokens tells where they end, and where a comment starts that has no end. -/
inductive Skips : List UInt8 → Trivia → Prop
  | closed {gap rest : List UInt8} : Gap gap rest → ¬ OpensGap rest → Skips (gap ++ rest) ⟨gap.length, none⟩
  | unclosed {gap body : List UInt8} : Gap gap (blockOpening ++ body) → ¬ blockClosing <:+: body →
    Skips (gap ++ (blockOpening ++ body)) ⟨(gap ++ (blockOpening ++ body)).length, some gap.length⟩

/-- Bytes that go well in front of a gap lengthen it. -/
theorem Skips.extend {bytes : List UInt8} {t : Trivia} (h : Skips bytes t) (front : List UInt8)
    (hfront : ∀ gap rest, bytes = gap ++ rest → Gap gap rest → Gap (front ++ gap) rest) :
    Skips (front ++ bytes) (t.after front.length) := by
  cases h with
  | @closed gap rest hgap hclear =>
    have hskips := Skips.closed (hfront gap rest rfl hgap) hclear
    simpa [Trivia.after, Nat.add_comm] using hskips
  | @unclosed gap body hgap hbody =>
    have hskips := Skips.unclosed (hfront gap _ rfl hgap) hbody
    simpa [Trivia.after, Nat.add_comm, Nat.add_left_comm, Nat.add_assoc] using hskips

/-- A close at the head is a star and a slash. -/
theorem eq_of_closing_prefix {b : UInt8} {rest : List UInt8} (h : blockClosing <+: b :: rest) :
    ∃ more, b = 42 ∧ rest = 47 :: more := by
  rw [blockClosing_eq] at h
  obtain ⟨more, hmore⟩ := h
  cases hmore
  exact ⟨more, rfl, rfl⟩

/-- What is measured of a closed comment ends with the first close in it. -/
theorem commentTail?_eq_some {bytes : List UInt8} {k : Nat} (h : commentTail? bytes = some k) :
    ∃ body rest, bytes = body ++ blockClosing ++ rest ∧ k = body.length + 2 ∧ ¬ blockClosing <:+: body := by
  fun_induction commentTail? bytes generalizing k with
  | case1 rest =>
    obtain rfl := Option.some.inj h
    exact ⟨[], rest, rfl, rfl, by simp [blockClosing_eq]⟩
  | case2 b rest hne ih =>
    obtain ⟨j, hj, rfl⟩ := Option.map_eq_some_iff.1 h
    obtain ⟨body, rest', hrest, rfl, hbody⟩ := ih hj
    refine ⟨b :: body, rest', by simp [hrest], rfl, fun hinfix => ?_⟩
    rcases List.infix_cons_iff.1 hinfix with hprefix | hinfix
    · -- a close at the head would have been found there
      obtain ⟨more, rfl, rfl⟩ := eq_of_closing_prefix hprefix
      exact hne (more ++ blockClosing ++ rest') rfl (by simp [hrest])
    · exact hbody hinfix
  | case3 => cases h

theorem commentTail?_eq_none {bytes : List UInt8} (h : commentTail? bytes = none) : ¬ blockClosing <:+: bytes := by
  fun_induction commentTail? bytes with
  | case1 rest => cases h
  | case2 b rest hne ih =>
    intro hinfix
    rcases List.infix_cons_iff.1 hinfix with hprefix | hinfix
    · obtain ⟨more, rfl, rfl⟩ := eq_of_closing_prefix hprefix
      exact hne _ rfl rfl
    · exact ih (Option.map_eq_none_iff.1 h) hinfix
  | case3 => simp [blockClosing_eq]

theorem not_opensGap_nil : ¬ OpensGap [] := by
  rintro (⟨b, hb, -⟩ | hline | hblock)
  · exact nomatch hb
  · simp [lineOpening_eq] at hline
  · simp [blockOpening_eq] at hblock

/-- A byte that is no blank opens no gap, unless it is the slash of a comment. -/
theorem not_opensGap_cons {b : UInt8} {rest : List UInt8} (hblank : ¬ isBlank b = true)
    (hcomment : b = 47 → ∀ c ∈ rest.head?, c ≠ 47 ∧ c ≠ 42) : ¬ OpensGap (b :: rest) := by
  have hopening (c : UInt8) (hc : c = 47 ∨ c = 42) : ¬ [47, c] <+: b :: rest := by
    rintro ⟨more, hmore⟩
    cases hmore
    obtain ⟨hline, hblock⟩ := hcomment rfl c rfl
    exact hc.elim hline hblock
  rintro (⟨b', hb', hblank'⟩ | hline | hblock)
  · obtain rfl := Option.some.inj hb'
    exact hblank hblank'
  · exact hopening 47 (.inl rfl) (lineOpening_eq ▸ hline)
  · exact hopening 42 (.inr rfl) (blockOpening_eq ▸ hblock)

theorem drop_length_takeWhile {α : Type} (p : α → Bool) (xs : List α) :
    xs.drop (xs.takeWhile p).length = xs.dropWhile p := by
  induction xs with
  | nil => rfl
  | cons x xs ih =>
    rw [List.takeWhile_cons, List.dropWhile_cons]
    split
    · exact ih
    · rfl

/-- What is passed over in front of a token is a gap, and it is all that can be passed over. -/
theorem skips_trivia (bytes : List UInt8) : Skips bytes (trivia bytes) := by
  have hslash : byte '/' = 47 := by decide
  fun_induction trivia bytes with
  | case1 => exact .closed (.empty []) not_opensGap_nil
  | case2 b rest hblank ih => exact ih.extend [b] fun gap rest _ hgap => .blank hblank hgap
  | case3 body k hblank ih =>
    have hdrop : body.drop k = body.dropWhile (· ≠ lineFeed) := drop_length_takeWhile _ _
    have hfeed : ∀ b ∈ (body.dropWhile (· ≠ lineFeed)).head?, b = lineFeed := by
      intro b hb
      have hnot := List.head?_dropWhile_not (· ≠ lineFeed) body
      rw [Option.mem_def.1 hb] at hnot
      simpa using hnot
    have hno : lineFeed ∉ body.takeWhile (· ≠ lineFeed) := by
      intro hmem
      have hall := List.all_takeWhile (p := (· ≠ lineFeed)) (l := body)
      simpa using List.all_eq_true.1 hall _ hmem
    rw [hdrop] at ih ⊢
    have hskips := ih.extend (lineOpening ++ body.takeWhile (· ≠ lineFeed)) fun gap rest hrest hgap =>
      .line hno (hrest ▸ hfeed) hgap
    rw [List.append_assoc, List.takeWhile_append_dropWhile] at hskips
    simpa [lineOpening_eq, hslash, k] using hskips
  | case4 body k hk hblank ih =>
    obtain ⟨comment, rest, rfl, rfl, hclosing⟩ := commentTail?_eq_some hk
    have hdrop : (comment ++ blockClosing ++ rest).drop (comment.length + 2) = rest := by
      simp [blockClosing_eq, List.drop_append]
    rw [hdrop] at ih ⊢
    have hskips := ih.extend (blockOpening ++ comment ++ blockClosing) fun gap rest _ hgap => .block hclosing hgap
    simpa [blockOpening_eq, blockClosing_eq, hslash] using hskips
  | case5 body hnone hblank =>
    have hskips := Skips.unclosed (.empty _) (commentTail?_eq_none hnone)
    simpa [blockOpening_eq, hslash] using hskips
  | case6 rest hline hblock hblank =>
    refine .closed (.empty _) (not_opensGap_cons hblank fun _ c hc => ?_)
    obtain ⟨more, rfl⟩ := List.head?_eq_some_iff.1 hc
    exact ⟨fun h => hline more (h ▸ rfl), fun h => hblock more (h ▸ rfl)⟩
  | case7 b rest hblank hother =>
    exact .closed (.empty _) (not_opensGap_cons hblank fun hb => absurd (hb.trans hslash.symm) hother)

/-! ### What is wrong with a lexeme -/

/-- A lexeme of no token has one problem, which is about all of it. A string may have several, each about a place
of its own. Other lexemes have none. -/
structure Lexeme.Faulty (l : Lexeme) : Prop where
  nodup : l.problems.Nodup
  within : ∀ p ∈ l.problems, p.2.1 < p.2.2 ∧ p.2.2 ≤ l.length
  invalid : l.kind = .invalid → ∃ p, l.problems = [(p, 0, l.length)]
  valid : l.kind ≠ .invalid → l.kind ≠ .string → l.problems = []

namespace Lexeme

theorem faulty_bad (p : Problem) (tail : Nat) : (bad p tail).Faulty where
  nodup := List.pairwise_singleton _ _
  within q hq := by
    obtain rfl := List.mem_singleton.1 hq
    exact ⟨Nat.succ_pos tail, Nat.le_refl _⟩
  invalid _ := ⟨p, rfl⟩
  valid hkind := absurd rfl hkind

theorem faulty_of_nil {l : Lexeme} (hkind : l.kind ≠ .invalid) (hnil : l.problems = []) : l.Faulty where
  nodup := by simp [hnil]
  within := by simp [hnil]
  invalid h := absurd h hkind
  valid _ _ := hnil

end Lexeme

theorem faulty_identLexeme (b : UInt8) (rest : List UInt8) : (identLexeme b rest).Faulty := by
  have hkeyword : ∀ k ∈ Kind.keywords, k ≠ .invalid := by decide
  unfold identLexeme
  split
  · exact Lexeme.faulty_bad _ _
  split
  · refine Lexeme.faulty_of_nil ?_ rfl
    dsimp only
    cases hword : Kind.ofKeyword? _ with
    | none => rintro ⟨⟩
    | some k => exact hkeyword k (List.mem_of_find?_eq_some hword)
  · exact Lexeme.faulty_bad _ _

theorem faulty_numberLexeme (bytes : List UInt8) (n : Nat) : (numberLexeme bytes n).Faulty := by
  unfold numberLexeme
  split
  · split
    · exact Lexeme.faulty_bad _ _
    · exact Lexeme.faulty_of_nil nofun rfl
  · exact Lexeme.faulty_of_nil nofun rfl

theorem faulty_scanNumber (bytes : List UInt8) : (scanNumber bytes).Faulty := by
  unfold scanNumber
  dsimp only
  repeat' split
  all_goals first | exact faulty_numberLexeme _ _ | exact Lexeme.faulty_bad _ _

theorem faulty_symbolLexeme (bytes : List UInt8) : (symbolLexeme bytes).Faulty := by
  have hsymbol : ∀ k ∈ Kind.symbols, k ≠ .invalid := by decide
  unfold symbolLexeme
  split
  · rename_i k hk
    exact Lexeme.faulty_of_nil (hsymbol k (List.mem_of_find?_eq_some hk)) rfl
  · exact Lexeme.faulty_bad _ _

/-- Unknown escapes stand one after another within a string. -/
structure StringTail.Ordered (t : StringTail) : Prop where
  ordered : t.badEscapes.Pairwise fun p q => p.1 < q.1
  within : ∀ p ∈ t.badEscapes, 0 < p.2 ∧ p.1 + p.2 ≤ t.length

namespace StringTail

theorem ordered_of_nil {t : StringTail} (hnil : t.badEscapes = []) : t.Ordered := ⟨by simp [hnil], by simp [hnil]⟩

theorem Ordered.after {t : StringTail} (h : t.Ordered) (n : Nat) (chars : List Char) :
    (t.after n chars []).Ordered where
  ordered := by
    refine List.pairwise_map.2 (h.ordered.imp fun hlt => ?_)
    exact Nat.add_lt_add_right hlt n
  within p hp := by
    obtain ⟨q, hq, rfl⟩ := List.mem_map.1 hp
    have := h.within q hq
    simp only [StringTail.after]
    omega

theorem Ordered.escape {t : StringTail} (h : t.Ordered) : (t.after 2 [] [(0, 2)]).Ordered where
  ordered := by
    refine List.pairwise_cons.2 ⟨fun p hp => ?_, (h.after 2 []).ordered⟩
    obtain ⟨q, -, rfl⟩ := List.mem_map.1 hp
    simp
  within p hp := by
    rcases List.mem_cons.1 hp with rfl | hp
    · simp [StringTail.after]
    · exact (h.after 2 []).within p hp

end StringTail

theorem ordered_stringTail (quote : UInt8) (bytes : List UInt8) : (stringTail quote bytes).Ordered := by
  fun_induction stringTail quote bytes with
  | case1 => exact StringTail.ordered_of_nil rfl
  | case2 => exact StringTail.ordered_of_nil rfl
  | case3 => exact StringTail.ordered_of_nil rfl
  | case4 => exact ⟨List.pairwise_singleton _ _, by simp⟩
  | case5 _ _ e rest c hc ih => exact ih.after _ _
  | case6 _ _ e rest hc ih => exact ih.escape
  | case7 b rest _ _ _ c k hc ih => exact ih.after _ _
  | case8 b rest _ _ _ hnone ih => exact ih.after _ _

theorem faulty_stringLexeme (quote : UInt8) (rest : List UInt8) : (stringLexeme quote rest).Faulty := by
  have htail := ordered_stringTail quote rest
  let t := stringTail quote rest
  let escapes : List (Problem × Nat × Nat) :=
    t.badEscapes.map fun p => (Problem.unknownEscape, p.1 + 1, p.1 + 1 + p.2)
  let ending : List (Problem × Nat × Nat) :=
    if t.closed then [] else [(Problem.unterminatedString, 0, t.length + 1)]
  have hescapes : escapes.Pairwise fun p q => p.2.1 < q.2.1 :=
    List.pairwise_map.2 (htail.ordered.imp fun hlt => Nat.add_lt_add_right hlt 1)
  have hending : ∀ p ∈ ending, p = (Problem.unterminatedString, 0, t.length + 1) := by
    intro p hp
    unfold ending at hp
    split at hp
    · cases hp
    · exact List.mem_singleton.1 hp
  constructor
  · refine List.nodup_append.2 ⟨hescapes.imp fun hlt heq => ?_, ?_, ?_⟩
    · exact absurd (heq ▸ hlt) (Nat.lt_irrefl _)
    · change ending.Nodup
      unfold ending
      split
      · exact List.nodup_nil
      · exact List.pairwise_singleton _ _
    · intro p hp q hq heq
      obtain ⟨e, -, rfl⟩ := List.mem_map.1 hp
      cases heq.trans (hending q hq)
  · intro p hp
    rcases List.mem_append.1 hp with hp | hp
    · obtain ⟨e, he, rfl⟩ := List.mem_map.1 hp
      have := htail.within e he
      simp only [stringLexeme, Lexeme.length]
      omega
    · obtain rfl := hending p hp
      exact ⟨Nat.succ_pos _, Nat.le_refl _⟩
  · rintro ⟨⟩
  · exact fun _ hkind => absurd rfl hkind

theorem faulty_lexeme (b : UInt8) (rest : List UInt8) : (lexeme b rest).Faulty := by
  unfold lexeme
  dsimp only
  split
  · exact faulty_identLexeme b rest
  split
  · exact faulty_scanNumber _
  split
  · exact faulty_stringLexeme b rest
  · exact faulty_symbolLexeme _

/-! ### What is reported of a token -/

/-- What was reported of a token lies within it. There is one report of bytes that no token could be made of,
which is about all of them; of a string there may be several, and of other tokens there are none. -/
structure Told (tok : Token) (ds : List Diagnostic) : Prop where
  nodup : ds.Nodup
  within : ∀ d ∈ ds, d.span.file = tok.span.file ∧ tok.span.start ≤ d.span.start ∧ d.span.start < d.span.stop ∧
    d.span.stop ≤ tok.span.stop
  invalid : tok.kind = .invalid → ∃ d, ds = [d] ∧ d.span = tok.span
  valid : tok.kind ≠ .invalid → tok.kind ≠ .string → ds = []

theorem Problem.message_inj {p q : Problem} (h : p.message = q.message) : p = q := by
  cases p <;> cases q <;> first | rfl | exact absurd h (by decide)

theorem report_inj {file off : Nat} {p q : Problem × Nat × Nat} (h : report file off p = report file off q) :
    p = q := by
  simp only [report, Diagnostic.mk.injEq, Source.Span.mk.injEq, Nat.add_left_cancel_iff] at h
  exact Prod.ext (Problem.message_inj h.2.2.2.1) (Prod.ext h.2.2.1.2.1 h.2.2.1.2.2)

theorem told_lexeme (file off : Nat) (b : UInt8) (rest : List UInt8) :
    Told (ofLexeme file off (b :: rest) (lexeme b rest)) ((lexeme b rest).problems.map (report file off)) := by
  have h := faulty_lexeme b rest
  constructor
  · exact List.pairwise_map.2 (h.nodup.imp fun hne heq => hne (report_inj heq))
  · intro d hd
    obtain ⟨p, hp, rfl⟩ := List.mem_map.1 hd
    obtain ⟨hlt, hle⟩ := h.within p hp
    exact ⟨rfl, Nat.le_add_right _ _, Nat.add_lt_add_left hlt off, Nat.add_le_add_left hle off⟩
  · intro hkind
    obtain ⟨p, hp⟩ := h.invalid hkind
    exact ⟨_, by rw [hp]; rfl, rfl⟩
  · intro hinvalid hstring
    rw [h.valid hinvalid hstring]
    rfl

/-! ### Tiles -/

/-- The token at the end of a file. -/
def endAt (file off : Nat) : Token := ⟨.eof, .point file off, "", []⟩

/-- The bytes from an offset on are tiled by tokens with gaps between them, and the reports are those of the
tokens, one after another. A comment without an end is reported in front of the end of the file. -/
inductive Tiled (file : Nat) : Nat → List UInt8 → List Token → List Diagnostic → Prop
  | finish {off : Nat} {gap : List UInt8} : Gap gap [] → Tiled file off gap [endAt file (off + gap.length)] []
  | unclosed {off : Nat} {gap body : List UInt8} : Gap gap (blockOpening ++ body) → ¬ blockClosing <:+: body →
    Tiled file off (gap ++ (blockOpening ++ body)) [endAt file (off + (gap ++ (blockOpening ++ body)).length)]
      [report file off (.unterminatedComment, gap.length, (gap ++ (blockOpening ++ body)).length)]
  | token {off : Nat} {gap spelling rest : List UInt8} {tok : Token} {tokens : List Token}
      {reports ds : List Diagnostic} :
    Gap gap (spelling ++ rest) → ¬ OpensGap (spelling ++ rest) → spelling ≠ [] → tok.kind ≠ .eof →
    tok.span = ⟨file, off + gap.length, off + gap.length + spelling.length⟩ → Told tok reports →
    Tiled file tok.span.stop rest tokens ds → Tiled file off (gap ++ (spelling ++ rest)) (tok :: tokens)
      (reports ++ ds)

/-- The tokens of some bytes tile them. -/
theorem tiled_scanAll (file off : Nat) (bytes : List UInt8) :
    Tiled file off bytes (scanAll file off bytes).1 (scanAll file off bytes).2 := by
  fun_induction scanAll file off bytes with
  | case1 off bytes hdrop s =>
    have hskips := skips_trivia bytes
    generalize htrivia : trivia bytes = t at hskips hdrop
    cases hskips with
    | @closed gap rest hgap hclear =>
      obtain rfl : rest = [] := by simpa using hdrop
      rw [List.append_nil] at htrivia ⊢
      have hs : s.token = endAt file (off + gap.length) ∧ s.diagnostics = [] := by simp [s, scan, htrivia, endAt]
      rw [hs.1, hs.2]
      exact .finish hgap
    | @unclosed gap body hgap hbody =>
      have hs : s.token = endAt file (off + (gap ++ (blockOpening ++ body)).length) ∧ s.diagnostics =
          [report file off (.unterminatedComment, gap.length, (gap ++ (blockOpening ++ body)).length)] := by
        simp only [s, scan, htrivia, hdrop]
        simp [endAt]
      rw [hs.1, hs.2]
      exact .unclosed hgap hbody
  | case2 off bytes b rest hdrop s tokens diagnostics hrest ih =>
    have hskips := skips_trivia bytes
    generalize htrivia : trivia bytes = t at hskips hdrop
    cases hskips with
    | @closed gap more hgap hclear =>
      obtain rfl : more = b :: rest := by simpa using hdrop
      have hs : s.token = ofLexeme file (off + gap.length) (b :: rest) (lexeme b rest) ∧
          s.diagnostics = (lexeme b rest).problems.map (report file (off + gap.length)) ∧
            s.off = s.token.span.stop := by
        simp [s, scan, htrivia, ofLexeme]
      obtain ⟨htoken, hdiagnostics, hoff⟩ := hs
      have htail := tail_lexeme_le b rest
      let spelling := b :: rest.take (lexeme b rest).tail
      have hspelling : spelling ++ rest.drop (lexeme b rest).tail = b :: rest := by simp [spelling]
      have hlength : spelling.length = (lexeme b rest).length := by
        simp [spelling, Lexeme.length, Nat.min_eq_left htail]
      rw [hrest, hoff] at ih
      rw [hdiagnostics]
      rw [← hspelling] at hgap hclear ⊢
      refine .token hgap hclear (List.cons_ne_nil _ _) ?_ ?_ ?_ ih
      · rw [htoken]
        exact lexeme_ne_eof b rest
      · rw [htoken, hlength]
        rfl
      · rw [htoken]
        exact told_lexeme file (off + gap.length) b rest
    | @unclosed gap body hgap hbody => simp at hdrop

namespace Tiled

variable {file off : Nat} {bytes : List UInt8} {tokens : List Token} {ds : List Diagnostic}

/-- Reports are about bytes from the offset on. -/
theorem le_start (h : Tiled file off bytes tokens ds) : ∀ d ∈ ds, off ≤ d.span.start := by
  induction h with
  | finish _ => exact fun _ hd => nomatch hd
  | unclosed _ _ =>
    intro d hd
    obtain rfl := List.mem_singleton.1 hd
    exact Nat.le_add_right _ _
  | token _ _ _ _ hspan htold _ ih =>
    intro d hd
    rcases List.mem_append.1 hd with hd | hd
    · have := (htold.within d hd).2.1
      rw [hspan] at this
      exact Nat.le_trans (Nat.le_add_right _ _) this
    · have hge := ih d hd
      simp only [hspan] at hge
      omega

/-- Nothing is reported twice. -/
theorem nodup (h : Tiled file off bytes tokens ds) : ds.Nodup := by
  induction h with
  | finish _ => exact List.nodup_nil
  | unclosed _ _ => exact List.pairwise_singleton _ _
  | token _ _ _ _ _ htold hrest ih =>
    refine List.nodup_append.2 ⟨htold.nodup, ih, fun d hd d' hd' heq => ?_⟩
    -- reports of a token end where those of the next ones begin at the earliest
    obtain ⟨-, -, hlt, hle⟩ := htold.within d hd
    have hge := hrest.le_start d' hd'
    subst heq
    omega

/-- The end of the file comes last, and only there. -/
theorem exists_append_end (h : Tiled file off bytes tokens ds) :
    ∃ before, tokens = before ++ [endAt file (off + bytes.length)] ∧ ∀ tok ∈ before, tok.kind ≠ .eof := by
  induction h with
  | finish _ => exact ⟨[], rfl, nofun⟩
  | unclosed _ _ => exact ⟨[], rfl, nofun⟩
  | @token off gap spelling rest tok tokens reports ds _ _ _ hkind hspan _ _ ih =>
    obtain ⟨before, rfl, hbefore⟩ := ih
    have hend : tok.span.stop + rest.length = off + (gap ++ (spelling ++ rest)).length := by
      rw [hspan]
      simp only [List.length_append]
      omega
    refine ⟨tok :: before, by rw [hend]; rfl, fun t ht => ?_⟩
    rcases List.mem_cons.1 ht with rfl | ht
    · exact hkind
    · exact hbefore t ht

end Tiled

/-- The tokens of a file tile it. -/
theorem tiled_ofFile (f : File) : Tiled f.id 0 f.content (ofFile f).1 (ofFile f).2 := tiled_scanAll f.id 0 f.content

end TypedScript.Token
