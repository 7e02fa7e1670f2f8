import Mathlib.Algebra.GroupWithZero.Nat
import TypedScript.Proofs.Token.Coverage

/-!
# Drawing tokens

A stream of a file gives the tokens of the file one after another, in whatever order it is asked for the next
token and for a look at it. What is wrong with a token is reported when it is scanned, so a token that was looked
at is not reported again.

* `Stream.Stands`: where a stream stands among the tokens of its file.
* `covers_lex`: the tokens of a file cover it, and streams draw them.
-/

namespace TypedScript.Token

open TypedScript.Source TypedScript.Text

/-- The token with the given number; from the last on, the end of the file. -/
def tokenAt (f : File) (n : Nat) : Token := (ofFile f).1.getD n (endAt f.id f.content.length)

/-- The tokens from the given number on. There is always the end of the file. -/
def tokensFrom (f : File) (n : Nat) : List Token :=
  if n < (ofFile f).1.length then (ofFile f).1.drop n else [endAt f.id f.content.length]

namespace Stream

/-- What a stream can be asked for. -/
inductive Call where
  | next
  | peek
  deriving DecidableEq, Repr

def call (s : Stream) : Call → Token × Stream
  | .next => s.next
  | .peek => s.peek

/-- The answers to calls, one after another. -/
def calls (s : Stream) : List Call → List Token × Stream
  | [] => ([], s)
  | c :: cs =>
    let (t, s) := s.call c
    let (ts, s) := s.calls cs
    (t :: ts, s)

end Stream

/-! ### Where a stream stands -/

variable {f : File}

/-- Scanning from here on gives the tokens from the given number on, and the reports that are still missing. -/
structure Stands (f : File) (n off : Nat) (rest : List UInt8) (reported : List Diagnostic) : Prop where
  tokens : (scanAll f.id off rest).1 = tokensFrom f n
  reports : reported ++ (scanAll f.id off rest).2 = (ofFile f).2
  ended : (ofFile f).1.length ≤ n → rest = []

theorem exists_ofFile_eq (f : File) :
    ∃ before, (ofFile f).1 = before ++ [endAt f.id f.content.length] ∧ ∀ tok ∈ before, tok.kind ≠ .eof := by
  have h := (tiled_ofFile f).exists_append_end
  rwa [Nat.zero_add] at h

theorem stands_ofFile (f : File) : Stands f 0 0 f.content [] := by
  obtain ⟨before, hbefore, -⟩ := exists_ofFile_eq f
  have hpos : 0 < (ofFile f).1.length := by simp [hbefore]
  refine ⟨?_, rfl, fun hle => absurd hpos (Nat.not_lt.2 hle)⟩
  rw [tokensFrom, if_pos hpos]
  rfl

/-- A token is the end of the file if it is the last one or comes later, and only then. -/
theorem kind_tokenAt_eq_eof_iff (n : Nat) : (tokenAt f n).kind = .eof ↔ (ofFile f).1.length ≤ n + 1 := by
  obtain ⟨before, hbefore, hkind⟩ := exists_ofFile_eq f
  unfold tokenAt
  rw [hbefore, List.length_append, List.length_singleton, Nat.add_le_add_iff_right]
  by_cases hn : n < before.length
  · have hmem : before[n] ∈ before := List.getElem_mem hn
    simp [List.getElem?_append_left hn, List.getD_eq_getElem?_getD, hkind _ hmem, hn]
  · have hle : before.length ≤ n := Nat.le_of_not_lt hn
    rw [List.getD_eq_getElem?_getD, List.getElem?_append_right hle]
    cases n - before.length <;> simp [endAt, hle]

theorem tokensFrom_of_le {n : Nat} (h : (ofFile f).1.length ≤ n + 1) : tokensFrom f n =
    [endAt f.id f.content.length] := by
  obtain ⟨before, hbefore, -⟩ := exists_ofFile_eq f
  unfold tokensFrom
  split
  · have hn : n = before.length := by
      simp only [hbefore, List.length_append, List.length_singleton] at h ‹n < _›
      omega
    rw [hbefore, hn, List.drop_left]
  · rfl

theorem tokenAt_of_le {n : Nat} (h : (ofFile f).1.length ≤ n + 1) : tokenAt f n = endAt f.id f.content.length := by
  obtain ⟨before, hbefore, -⟩ := exists_ofFile_eq f
  have hle : before.length ≤ n := by simpa [hbefore] using h
  unfold tokenAt
  rw [hbefore, List.getD_eq_getElem?_getD, List.getElem?_append_right hle]
  cases n - before.length <;> rfl

theorem tokensFrom_eq_cons {n : Nat} (h : n + 1 < (ofFile f).1.length) :
    tokensFrom f n = tokenAt f n :: tokensFrom f (n + 1) := by
  have hn := Nat.lt_of_succ_lt h
  unfold tokensFrom tokenAt
  rw [if_pos hn, if_pos h, List.drop_eq_getElem_cons hn, List.getD_eq_getElem?_getD, List.getElem?_eq_getElem hn]
  rfl

/-- A token that is drawn has more behind it, or it is the end of the file. -/
theorem tokensFrom_cases (f : File) (n : Nat) :
    (ofFile f).1.length ≤ n + 1 ∧ tokenAt f n = endAt f.id f.content.length ∧ tokensFrom f n = [tokenAt f n] ∨
      n + 1 < (ofFile f).1.length ∧ tokensFrom f n = tokenAt f n :: tokensFrom f (n + 1) := by
  rcases Nat.lt_or_ge (n + 1) (ofFile f).1.length with hlt | hle
  · exact .inr ⟨hlt, tokensFrom_eq_cons hlt⟩
  · exact .inl ⟨hle, tokenAt_of_le hle, by rw [tokensFrom_of_le hle, tokenAt_of_le hle]⟩

theorem tokensFrom_ne_nil (f : File) (n : Nat) : tokensFrom f n ≠ [] := by
  rcases tokensFrom_cases f n with ⟨-, -, h⟩ | ⟨-, h⟩ <;> rw [h] <;> exact List.cons_ne_nil _ _

theorem scanAll_nil (file off : Nat) : scanAll file off [] = ([endAt file off], []) := by
  have htrivia : trivia [] = ⟨0, none⟩ := by simp [trivia]
  rw [scanAll_of_nil (by simp)]
  simp [scan, htrivia, endAt]

/-- The end of the file has nothing behind it. -/
theorem Stands.reported_eq {n off : Nat} {rest : List UInt8} {reported : List Diagnostic}
    (h : Stands f n off rest reported) (hn : (ofFile f).1.length ≤ n) : reported = (ofFile f).2 := by
  have hreports := h.reports
  rwa [h.ended hn, scanAll_nil, List.append_nil] at hreports

/-- A scan gives the next token and moves on by one. -/
theorem Stands.scan {n off : Nat} {rest : List UInt8} {reported : List Diagnostic}
    (h : Stands f n off rest reported) :
    (scan f.id off rest).token = tokenAt f n ∧
      Stands f (n + 1) (scan f.id off rest).off (scan f.id off rest).rest
        (reported ++ (scan f.id off rest).diagnostics) := by
  have htokens := h.tokens
  have hreports := h.reports
  cases hdrop : rest.drop (trivia rest).length with
  | nil =>
    rw [scanAll_of_nil hdrop] at htokens hreports
    have hend : (Token.scan f.id off rest).rest = [] ∧
        (Token.scan f.id off rest).token = endAt f.id (Token.scan f.id off rest).off := by
      simp [Token.scan, hdrop, endAt]
    obtain ⟨hle, htoken, hfrom⟩ : _ ∧ _ ∧ tokensFrom f n = [tokenAt f n] := by
      rcases tokensFrom_cases f n with hcase | ⟨-, hfrom⟩
      · exact hcase
      · exact absurd (List.cons.inj (htokens.trans hfrom)).2.symm (tokensFrom_ne_nil f (n + 1))
    have hscan : (Token.scan f.id off rest).token = tokenAt f n := (List.cons.inj (htokens.trans hfrom)).1
    refine ⟨hscan, ?_, ?_, fun _ => hend.1⟩
    · rw [hend.1, scanAll_nil, ← hend.2, hscan, htoken, tokensFrom_of_le (Nat.le_succ_of_le hle)]
    · rw [hend.1, scanAll_nil, List.append_nil]
      exact hreports
  | cons b more =>
    rw [scanAll_of_cons hdrop] at htokens hreports
    have hscan : (Token.scan f.id off rest).rest = more.drop (lexeme b more).tail ∧
        (Token.scan f.id off rest).token.kind ≠ .eof := by
      simp [Token.scan, hdrop, ofLexeme, lexeme_ne_eof]
    rcases tokensFrom_cases f n with ⟨-, htoken, hfrom⟩ | ⟨hlt, hfrom⟩
    · rw [hfrom, htoken] at htokens
      exact absurd (congrArg Token.kind (List.cons.inj htokens).1) hscan.2
    · obtain ⟨hhead, htail⟩ := List.cons.inj (htokens.trans hfrom)
      rw [hscan.1]
      exact ⟨hhead, htail, by rw [List.append_assoc]; exact hreports, fun hle => absurd hlt (Nat.not_lt.2 hle)⟩

namespace Stream

/-- The stream has drawn the tokens before the given number, and perhaps a token ahead. -/
def Inv (f : File) (n : Nat) (s : Stream) : Prop :=
  s.file = f.id ∧
    match s.ahead with
    | none => Stands f n s.off s.rest s.reported
    | some t => t = tokenAt f n ∧ Stands f (n + 1) s.off s.rest s.reported

theorem inv_ofFile (f : File) : Inv f 0 (ofFile f) := ⟨rfl, stands_ofFile f⟩

variable {n : Nat} {s : Stream}

/-- The next token is drawn, and none is ahead any more. -/
theorem Inv.next (h : Inv f n s) :
    s.next.1 = tokenAt f n ∧ s.next.2.file = f.id ∧ s.next.2.ahead = none ∧
      Stands f (n + 1) s.next.2.off s.next.2.rest s.next.2.reported := by
  obtain ⟨hfile, hstands⟩ := h
  unfold Stream.next
  cases hahead : s.ahead with
  | some t =>
    rw [hahead] at hstands
    exact ⟨hstands.1, hfile, rfl, hstands.2⟩
  | none =>
    rw [hahead] at hstands
    rw [hfile]
    obtain ⟨htoken, hstands⟩ := hstands.scan
    dsimp only
    exact ⟨htoken, rfl, rfl, hstands⟩

/-- How many tokens a call draws for good. -/
def Call.count : Call → Nat
  | .next => 1
  | .peek => 0

theorem Inv.call (h : Inv f n s) (c : Call) :
    (s.call c).1 = tokenAt f n ∧ Inv f (n + c.count) (s.call c).2 ∧
      ((tokenAt f n).kind = .eof → (s.call c).2.reported = (Token.ofFile f).2) := by
  obtain ⟨htoken, hfile, hahead, hstands⟩ := h.next
  have hended (hkind : (tokenAt f n).kind = .eof) : s.next.2.reported = (Token.ofFile f).2 :=
    hstands.reported_eq ((kind_tokenAt_eq_eof_iff n).1 hkind)
  cases c with
  | next =>
    refine ⟨htoken, ⟨hfile, ?_⟩, hended⟩
    change match s.next.2.ahead with | none => _ | some t => _
    rw [hahead]
    exact hstands
  | peek => exact ⟨htoken, ⟨hfile, htoken, hstands⟩, hended⟩

theorem Inv.reported_prefix (h : Inv f n s) : s.reported <+: (Token.ofFile f).2 := by
  obtain ⟨-, hstands⟩ := h
  cases hahead : s.ahead with
  | none =>
    rw [hahead] at hstands
    exact ⟨_, hstands.reports⟩
  | some t =>
    rw [hahead] at hstands
    exact ⟨_, hstands.2.reports⟩

/-- Drawing what is left gives the tokens from here on, and the reports are complete. -/
theorem Inv.drain (h : Inv f n s) : s.drain.1 = tokensFrom f n ∧ s.drain.2.reported = (Token.ofFile f).2 := by
  obtain ⟨hfile, hstands⟩ := h
  unfold Stream.drain
  rw [hfile]
  cases hahead : s.ahead with
  | none =>
    rw [hahead] at hstands
    exact ⟨hstands.tokens, hstands.reports⟩
  | some t =>
    rw [hahead] at hstands
    obtain ⟨rfl, hstands⟩ := hstands
    dsimp only
    by_cases hkind : (tokenAt f n).kind = .eof
    · have hle := (kind_tokenAt_eq_eof_iff n).1 hkind
      rw [if_pos hkind, tokensFrom_of_le hle, tokenAt_of_le hle]
      exact ⟨rfl, hstands.reported_eq hle⟩
    · have hlt : n + 1 < (Token.ofFile f).1.length :=
        Nat.lt_of_not_le fun hle => hkind ((kind_tokenAt_eq_eof_iff n).2 hle)
      rw [if_neg hkind, tokensFrom_eq_cons hlt]
      exact ⟨congrArg (tokenAt f n :: ·) hstands.tokens, hstands.reports⟩

theorem reported_prefix_next (s : Stream) : s.reported <+: s.next.2.reported := by
  unfold Stream.next
  split
  · exact List.prefix_refl _
  · exact List.prefix_append _ _

theorem reported_prefix_call (s : Stream) (c : Call) : s.reported <+: (s.call c).2.reported := by
  cases c <;> exact reported_prefix_next s

/-- Reports are never taken back. -/
theorem reported_prefix_calls (s : Stream) (cs : List Call) : s.reported <+: (s.calls cs).2.reported := by
  induction cs generalizing s with
  | nil => exact List.prefix_refl _
  | cons c cs ih => exact (reported_prefix_call s c).trans (ih (s.call c).2)

/-- The number of tokens that calls draw for good. -/
def drawn (cs : List Call) : Nat := (cs.map Call.count).sum

@[simp]
theorem drawn_cons (c : Call) (cs : List Call) : drawn (c :: cs) = c.count + drawn cs := by simp [drawn]

/-- Each call is answered with the token whose turn it is, however often it was looked at before. -/
theorem Inv.calls (h : Inv f n s) (cs : List Call) :
    (s.calls cs).1 = (List.range cs.length).map (fun k => tokenAt f (n + drawn (cs.take k))) ∧
      Inv f (n + drawn cs) (s.calls cs).2 ∧
      ((∃ tok ∈ (s.calls cs).1, tok.kind = .eof) → (s.calls cs).2.reported = (Token.ofFile f).2) := by
  induction cs generalizing n s with
  | nil => exact ⟨rfl, h, fun ⟨_, htok, _⟩ => nomatch htok⟩
  | cons c cs ih =>
    obtain ⟨htoken, hinv, hended⟩ := h.call c
    obtain ⟨htokens, hfinal, hrest⟩ := ih hinv
    refine ⟨?_, ?_, ?_⟩
    · rw [List.length_cons, List.range_succ_eq_map, List.map_cons, List.map_map]
      refine List.cons_eq_cons.2 ⟨htoken, htokens.trans (List.map_congr_left fun k _ => ?_)⟩
      simp [Nat.add_assoc]
    · rw [drawn_cons, ← Nat.add_assoc]
      exact hfinal
    · rintro ⟨tok, htok, hkind⟩
      rcases List.mem_cons.1 htok with rfl | htok
      · -- what was complete stays so
        have hcomplete := hended (htoken ▸ hkind)
        have hlater : (Token.ofFile f).2 <+: ((s.call c).2.calls cs).2.reported :=
          hcomplete ▸ reported_prefix_calls (s.call c).2 cs
        exact hfinal.reported_prefix.eq_of_length_le hlater.length_le
      · exact hrest ⟨tok, htok, hkind⟩

/-- What calls give on a new stream of a file. Each is answered with the token after the ones drawn so far, past
the last one with the end of the file again, and the tokens left are those that were not drawn. A report is made
when its token is first seen and never again. -/
structure Draws (f : File) (cs : List Call) : Prop where
  answers : ((ofFile f).calls cs).1 = (List.range cs.length).map fun k => tokenAt f (drawn (cs.take k))
  rest : ((ofFile f).calls cs).2.drain.1 = tokensFrom f (drawn cs)
  reported : ((ofFile f).calls cs).2.reported <+: (Token.ofFile f).2
  ended : (∃ tok ∈ ((ofFile f).calls cs).1, tok.kind = .eof) → ((ofFile f).calls cs).2.reported = (Token.ofFile f).2
  complete : ((ofFile f).calls cs).2.drain.2.reported = (Token.ofFile f).2

theorem draws_ofFile (f : File) (cs : List Call) : Draws f cs := by
  obtain ⟨hanswers, hinv, hended⟩ := (inv_ofFile f).calls cs
  simp only [Nat.zero_add] at hanswers hinv
  exact ⟨hanswers, hinv.drain.1, hinv.reported_prefix, hended, hinv.drain.2⟩

end Stream

/-- If the offsets of a file are words, its tokens stand one after another, none of them empty, with the end of
the file as the last and only there. Between them there are blanks and comments, every report is made once, and
streams draw these tokens in turn; past the last one they give the end of the file again. -/
theorem covers_lex (f : File) (hcontent : f.content.length < offsetLimit) :
    ∃ tokens reports, lex f = .ok (tokens, reports) ∧ Stream.open? f = .ok (.ofFile f) ∧
      (∃ before, tokens = before ++ [endAt f.id f.content.length] ∧ ∀ tok ∈ before, tok.kind ≠ .eof) ∧
      Lined f.id f.content.length 0 tokens ∧ Tiled f.id 0 f.content tokens reports ∧ reports.Nodup ∧
        ∀ cs, Stream.Draws f cs :=
  ⟨_, _, if_pos hcontent, if_pos hcontent, exists_ofFile_eq f, lined_ofFile f, tiled_ofFile f,
    (tiled_ofFile f).nodup,
    Stream.draws_ofFile f⟩

/-- A comment that is not ended, behind a name. -/
theorem covers_lex_of_comment :
    let f := File.ofContent 0 "m.ts" "ab /* c".toUTF8.toList 0
    f.content.length < offsetLimit ∧ ∃ tokens reports, lex f = .ok (tokens, reports) ∧
      Tiled f.id 0 f.content tokens reports ∧ reports ≠ [] := by
  intro f
  have hcontent : f.content.length < offsetLimit := by decide +kernel
  obtain ⟨tokens, reports, hlex, -, -, -, htiled, -⟩ := covers_lex f hcontent
  have hreports : reports = (ofFile f).2 := by
    rw [lex, if_pos hcontent] at hlex
    exact congrArg Prod.snd (Except.ok.inj hlex).symm
  exact ⟨hcontent, tokens, reports, hlex, htiled, by rw [hreports]; decide +kernel⟩

/-- A file whose offsets are too large for words has no tokens, and no stream. A stream that is asked again after
the end of its file gives it again, although the end is one token only. -/
theorem lex_limits :
    let large := File.ofContent 0 "m.ts" (List.replicate 4294967296 32) 0
    let none := File.ofContent 0 "m.ts" [] 0
    (lex large = .error .content ∧ Stream.open? large = .error .content) ∧
      lex none = .ok ([endAt 0 0], []) ∧ ∃ s, Stream.open? none = .ok s ∧ (s.calls [.next, .next]).1 =
        [endAt 0 0, endAt 0 0] := by
  intro large none
  have hlarge : ¬ large.content.length < offsetLimit := by
    rw [show large.content = List.replicate 4294967296 32 from rfl, List.length_replicate]
    exact Nat.lt_irrefl _
  have hnone : none.content.length < offsetLimit := by decide
  refine ⟨⟨if_neg hlarge, if_neg hlarge⟩, ?_, _, if_pos hnone, by decide +kernel⟩
  rw [lex, if_pos hnone, ofFile, show none.content = [] from rfl, scanAll_nil]
  rfl

end TypedScript.Token
