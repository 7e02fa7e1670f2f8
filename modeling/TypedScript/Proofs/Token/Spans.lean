import TypedScript.Token.Lexer

/-!
# The places of tokens

What is measured at the head of a byte string lies within it, so the tokens of a file lie within the file. They
stand one after another, none is empty, and the end of the file, which is at the end of its bytes, comes last and
only there.

* `tail_lexeme_le`: a token lies within the bytes that it is read from.
* `lined_ofFile`: how the tokens of a file stand.
-/

namespace TypedScript.Text

theorem le_length_of_decodeHead {bytes : List UInt8} {c : Char} {k : Nat} (h : decodeHead bytes = some (c, k)) :
    k ≤ bytes.length := by
  unfold decodeHead at h
  split at h
  · cases h
  · dsimp only at h
    repeat' split at h
    all_goals
      simp only [Option.bind_eq_bind, Option.bind_eq_some_iff, Option.pure_def, Option.some.injEq, Prod.mk.injEq,
        reduceCtorEq] at h
    all_goals simp only [List.length_cons] at *; grind

end TypedScript.Text

namespace TypedScript.Token

open TypedScript.Source TypedScript.Text

/-! ### Measuring -/

theorem commentTail?_le {bytes : List UInt8} {k : Nat} (h : commentTail? bytes = some k) : k ≤ bytes.length := by
  fun_induction commentTail? bytes generalizing k with
  | case1 rest =>
    obtain rfl := Option.some.inj h
    simp
  | case2 b rest hne ih =>
    obtain ⟨j, hj, rfl⟩ := Option.map_eq_some_iff.1 h
    exact Nat.succ_le_succ (ih hj)
  | case3 => exact nomatch h

theorem length_trivia_le (bytes : List UInt8) : (trivia bytes).length ≤ bytes.length := by
  fun_induction trivia bytes with
  | case1 => exact Nat.le_refl _
  | case2 b rest hblank ih => exact Nat.succ_le_succ ih
  | case3 body k hblank ih =>
    have hk : k ≤ body.length := (List.takeWhile_sublist _).length_le
    simp only [Trivia.after, List.length_cons, List.length_drop] at ih ⊢
    omega
  | case4 body k hk hblank ih =>
    have hle := commentTail?_le hk
    simp only [Trivia.after, List.length_cons, List.length_drop] at ih ⊢
    omega
  | case5 body hnone hblank => simp
  | case6 rest hblank hline hblock => exact Nat.zero_le _
  | case7 b rest hblank hslash => exact Nat.zero_le _

theorem runLength_le (p : UInt8 → Bool) (bytes : List UInt8) : runLength p bytes ≤ bytes.length :=
  (List.takeWhile_sublist p).length_le

theorem identLength_le (bytes : List UInt8) : identLength bytes ≤ bytes.length := by
  fun_induction identLength bytes with
  | case1 => exact Nat.le_refl _
  | case2 b rest hnone => exact Nat.zero_le _
  | case3 b rest c k hc hident ih =>
    have hk := le_length_of_decodeHead hc
    simp only [List.length_cons, List.length_drop] at hk ih ⊢
    omega
  | case4 b rest c k hc hident => exact Nat.zero_le _

theorem mantissaLength_le (bytes : List UInt8) : mantissaLength bytes ≤ bytes.length := by
  have hwhole := runLength_le isDigitByte bytes
  unfold mantissaLength
  dsimp only
  split
  · rename_i b rest hdrop
    have hlength := congrArg List.length hdrop
    have hrun := runLength_le isDigitByte rest
    simp only [List.length_drop, List.length_cons] at hlength
    split <;> omega
  · exact hwhole

theorem length_stringTail_le (quote : UInt8) (bytes : List UInt8) : (stringTail quote bytes).length ≤
    bytes.length := by
  fun_induction stringTail quote bytes with
  | case1 => exact Nat.le_refl _
  | case2 => exact Nat.zero_le _
  | case3 => simp
  | case4 => simp
  | case5 _ _ e rest c hc ih => simpa [StringTail.after] using ih
  | case6 _ _ e rest hc ih => simpa [StringTail.after] using ih
  | case7 b rest _ _ _ c k hc ih =>
    have hk := le_length_of_decodeHead hc
    simp only [StringTail.after, List.length_cons, List.length_drop] at hk ih ⊢
    omega
  | case8 b rest _ _ _ hnone ih => simpa [StringTail.after] using ih

/-! ### Lexemes -/

theorem tail_identLexeme_le (b : UInt8) (rest : List UInt8) : (identLexeme b rest).tail ≤ rest.length := by
  unfold identLexeme
  split
  · exact Nat.zero_le _
  · rename_i c k hc
    have hk := le_length_of_decodeHead hc
    have hident := identLength_le (rest.drop (k - 1))
    simp only [List.length_cons, List.length_drop] at hk hident
    split
    · dsimp only
      omega
    · simp only [Lexeme.bad]
      omega

theorem tail_numberLexeme_lt {bytes : List UInt8} {n : Nat} (hne : bytes ≠ []) (hn : n ≤ bytes.length) :
    (numberLexeme bytes n).tail < bytes.length := by
  have hpos := List.length_pos_iff.2 hne
  unfold numberLexeme
  split
  · rename_i b rest hdrop
    have hlength := congrArg List.length hdrop
    have hrun := runLength_le isIdentByte rest
    simp only [List.length_drop, List.length_cons] at hlength
    split <;> simp only [Lexeme.bad] <;> omega
  · dsimp only
    omega

theorem tail_scanNumber_lt {bytes : List UInt8} (hne : bytes ≠ []) : (scanNumber bytes).tail < bytes.length := by
  have hhex (x : UInt8) (rest : List UInt8) (hbytes : bytes = 48 :: x :: rest) :
      (if runLength isHexByte rest = 0 then Lexeme.bad .missingHexDigit 1
        else numberLexeme bytes (runLength isHexByte rest + 2)).tail < bytes.length := by
    have hrun := runLength_le isHexByte rest
    have hlength := congrArg List.length hbytes
    simp only [List.length_cons] at hlength
    split
    · simp only [Lexeme.bad]
      omega
    · exact tail_numberLexeme_lt hne (by omega)
  unfold scanNumber
  split
  · exact hhex 120 _ rfl
  · exact hhex 88 _ rfl
  have hmantissa := mantissaLength_le bytes
  dsimp only
  split
  · rename_i e rest hdrop
    have hlength := congrArg List.length hdrop
    simp only [List.length_drop, List.length_cons] at hlength
    have hexponent (sign : Nat) (hle : sign ≤ rest.length) :
        (if runLength isDigitByte (rest.drop sign) =
        0 then Lexeme.bad .missingExponentDigit (mantissaLength bytes + sign)
          else numberLexeme bytes (mantissaLength bytes + 1 + sign + runLength isDigitByte (rest.drop sign))).tail <
            bytes.length := by
      have hrun := runLength_le isDigitByte (rest.drop sign)
      rw [List.length_drop] at hrun
      split
      · simp only [Lexeme.bad]
        omega
      · exact tail_numberLexeme_lt hne (by omega)
    split
    · refine hexponent _ ?_
      split
      · split <;> simp
      · exact Nat.zero_le _
    · exact tail_numberLexeme_lt hne hmantissa
  · exact tail_numberLexeme_lt hne hmantissa

theorem tail_symbolLexeme_lt {bytes : List UInt8} (hne : bytes ≠ []) : (symbolLexeme bytes).tail <
    bytes.length := by
  have hpos := List.length_pos_iff.2 hne
  unfold symbolLexeme
  split
  · rename_i k hk
    have hfound := List.find?_some hk
    have hprefix := List.isPrefixOf_iff_prefix.1 hfound
    have hsize : k.name.utf8ByteSize ≤ bytes.length := by
      simpa [encode] using hprefix.length_le
    dsimp only
    omega
  · exact hpos

/-- A token lies within the bytes that it is read from. -/
theorem tail_lexeme_le (b : UInt8) (rest : List UInt8) : (lexeme b rest).tail ≤ rest.length := by
  unfold lexeme
  dsimp only
  split
  · exact tail_identLexeme_le b rest
  split
  · exact Nat.le_of_lt_succ (tail_scanNumber_lt (List.cons_ne_nil b rest))
  split
  · exact length_stringTail_le b rest
  · exact Nat.le_of_lt_succ (tail_symbolLexeme_lt (List.cons_ne_nil b rest))

/-! ### The end of the file -/

theorem numberLexeme_ne_eof (bytes : List UInt8) (n : Nat) : (numberLexeme bytes n).kind ≠ .eof := by
  unfold numberLexeme
  split
  · split <;> exact nofun
  · exact nofun

theorem scanNumber_ne_eof (bytes : List UInt8) : (scanNumber bytes).kind ≠ .eof := by
  unfold scanNumber
  dsimp only
  repeat' split
  all_goals first | exact numberLexeme_ne_eof _ _ | exact nofun

theorem lexeme_ne_eof (b : UInt8) (rest : List UInt8) : (lexeme b rest).kind ≠ .eof := by
  have hkeyword : ∀ k ∈ Kind.keywords, k ≠ .eof := by decide
  have hsymbol : ∀ k ∈ Kind.symbols, k ≠ .eof := by decide
  unfold lexeme
  dsimp only
  split
  · unfold identLexeme
    split
    · rintro ⟨⟩
    split
    · dsimp only
      cases hword : Kind.ofKeyword? _ with
      | none => rintro ⟨⟩
      | some k => exact hkeyword k (List.mem_of_find?_eq_some hword)
    · rintro ⟨⟩
  split
  · exact scanNumber_ne_eof _
  split
  · rintro ⟨⟩
  · unfold symbolLexeme
    split
    · rename_i k hk
      exact hsymbol k (List.mem_of_find?_eq_some hk)
    · rintro ⟨⟩

/-! ### One after another -/

/-- The tokens stand one after another from the offset on, none of them empty, and the end of the file comes last.
-/
inductive Lined (file size : Nat) : Nat → List Token → Prop
  | eof {off : Nat} {tok : Token} : off ≤ size → tok.kind = .eof → tok.span = .point file size →
      Lined file size off [tok]
  | cons {off : Nat} {tok : Token} {rest : List Token} : tok.kind ≠ .eof → tok.span.file = file →
      off ≤ tok.span.start →
    tok.span.start < tok.span.stop → Lined file size tok.span.stop rest → Lined file size off (tok :: rest)

namespace Lined

variable {file size off : Nat} {tokens : List Token}

theorem le (h : Lined file size off tokens) : off ≤ size := by
  induction h with
  | eof hle _ _ => exact hle
  | cons _ _ hle hlt _ ih => omega

end Lined

/-! ### All tokens -/

theorem scanAll_of_nil {file off : Nat} {bytes : List UInt8} (h : bytes.drop (trivia bytes).length = []) :
    scanAll file off bytes = ([(scan file off bytes).token], (scan file off bytes).diagnostics) := by
  rw [scanAll.eq_def]
  split
  · rfl
  · rename_i heq
    cases h.symm.trans heq

theorem scanAll_of_cons {file off : Nat} {bytes : List UInt8} {b : UInt8} {rest : List UInt8}
    (h : bytes.drop (trivia bytes).length = b :: rest) : scanAll file off bytes =
      ((scan file off bytes).token :: (scanAll file (scan file off bytes).off (rest.drop (lexeme b rest).tail)).1,
        (scan file off bytes).diagnostics ++
          (scanAll file (scan file off bytes).off (rest.drop (lexeme b rest).tail)).2) := by
  rw [scanAll.eq_def]
  split
  · rename_i heq
    cases h.symm.trans heq
  · rename_i heq
    obtain ⟨rfl, rfl⟩ := List.cons.inj (h.symm.trans heq)
    rfl

theorem lined_scanAll (file off : Nat) (bytes : List UInt8) :
    Lined file (off + bytes.length) off (scanAll file off bytes).1 := by
  fun_induction scanAll file off bytes with
  | case1 off bytes hdrop s =>
    have hlength : (trivia bytes).length = bytes.length :=
      Nat.le_antisymm (length_trivia_le bytes) (List.drop_eq_nil_iff.1 hdrop)
    have hs : s.token = ⟨.eof, .point file (off + bytes.length), "", []⟩ := by simp [s, scan, hlength]
    exact .eof (Nat.le_add_right _ _) (by rw [hs]) (by rw [hs])
  | case2 off bytes b rest hdrop s tokens diagnostics hrest ih =>
    have hlength := congrArg List.length hdrop
    have htrivia := length_trivia_le bytes
    have htail := tail_lexeme_le b rest
    simp only [List.length_drop, List.length_cons] at hlength
    have hs : s = scan file off bytes := rfl
    have htoken : s.token = ofLexeme file (off + (trivia bytes).length) (b :: rest) (lexeme b rest) := by
      simp [hs, scan, hdrop]
    have hoff : s.off = off + (trivia bytes).length + ((lexeme b rest).tail + 1) := by
      simp [hs, scan, hdrop, Lexeme.length]
    have hend : off + bytes.length = s.off + (rest.drop (lexeme b rest).tail).length := by
      rw [hoff, List.length_drop]
      omega
    have hstop : s.token.span.stop = s.off := by simp [htoken, hoff, ofLexeme, Lexeme.length]
    rw [hrest] at ih
    refine .cons ?_ (by simp [htoken, ofLexeme]) (by simp [htoken, ofLexeme]) ?_ ?_
    · rw [htoken]
      exact lexeme_ne_eof b rest
    · simp [htoken, ofLexeme, Lexeme.length]
    · rw [hend, hstop]
      exact ih

/-- How the tokens of a file stand. -/
theorem lined_ofFile (f : File) : Lined f.id f.content.length 0 (ofFile f).1 := by
  have h := lined_scanAll f.id 0 f.content
  rwa [Nat.zero_add] at h

end TypedScript.Token
