import TypedScript.Proofs.Token.Spans
import TypedScript.Proofs.Token.Spelled

/-!
# String literals

A text that is written between quotes, with its line feeds, tabs, carriage returns, zeros, backslashes and quotes
escaped, is read back, whatever follows.

* `lexeme_quoted`: what is read at a string literal.
* `normalise_quoted`: a string literal is left as it is when its file is put into normal form.
* `scanAll_quoted`: the tokens of a string literal and of what follows it; `lex_quoted` tells of whole files.
-/

namespace TypedScript.Token

open TypedScript.Source TypedScript.Text
open String (utf8EncodeChar)

variable {quote : Char}

/-- A string literal is read up to its closing quote. -/
theorem lexeme_quoted (hquote : quote = '"' ∨ quote = '\'') (cs : List Char) (rest : List UInt8) :
    ∃ bs, bytesOf (quoted quote cs) = .ofNat quote.toNat :: bs ∧ trivia
      (.ofNat quote.toNat :: (bs ++ rest)) = ⟨0, none⟩ ∧
      lexeme (.ofNat quote.toNat) (bs ++ rest) = ⟨.string, bs.length, String.ofList cs, []⟩ := by
  refine ⟨bytesOf (cs.flatMap escaped ++ [quote]), ?_, ?_, ?_⟩
  · have hascii : quote.toNat < 0x80 := by rcases hquote with rfl | rfl <;> decide
    rw [quoted, bytesOf_cons, utf8EncodeChar_ascii hascii]
    rfl
  · rcases hquote with rfl | rfl <;> exact trivia_eq_zero (by decide) (by decide) _
  · have hlexeme (bs : List UInt8) : lexeme (.ofNat quote.toNat) bs = stringLexeme (.ofNat quote.toNat) bs := by
      rcases hquote with rfl | rfl <;> rfl
    rw [hlexeme, stringLexeme, stringTail_quoted hquote]
    rfl

/-! ### The normal form of a file -/

theorem scan_of_trivia {b : UInt8} {rest : List UInt8} (h : trivia (b :: rest) = ⟨0, none⟩) (file off : Nat) :
    scan file off (b :: rest) = ⟨ofLexeme file off (b :: rest) (lexeme b rest),
      (lexeme b rest).problems.map (report file off), off + (lexeme b rest).length,
        rest.drop (lexeme b rest).tail⟩ := by
  unfold scan
  rw [h]
  rfl

/-- A literal is one token, and what follows it is read as if it stood alone. -/
theorem tokens_quoted (hquote : quote = '"' ∨ quote = '\'') (s : String) (rest : List UInt8) (file off : Nat) :
    let literal := bytesOf (quoted quote s.toList)
    let token : Token := ⟨.string, ⟨file, off, off + literal.length⟩, s, []⟩
    scan file off (literal ++ rest) = ⟨token, [], off + literal.length, rest⟩ ∧
      scanAll file off (literal ++ rest) =
        (token :: (scanAll file (off + literal.length) rest).1, (scanAll file (off + literal.length) rest).2) := by
  intro literal token
  obtain ⟨bs, hbytes, htrivia, hlexeme⟩ := lexeme_quoted hquote s.toList rest
  rw [String.ofList_toList] at hlexeme
  have hliteral : literal ++ rest = .ofNat quote.toNat :: (bs ++ rest) := by rw [← List.cons_append, ← hbytes]
  have hlength : literal.length = bs.length + 1 := congrArg List.length hbytes
  have hdrop : (literal ++ rest).drop (trivia (literal ++ rest)).length = .ofNat quote.toNat :: (bs ++ rest) := by
    rw [hliteral, htrivia, List.drop_zero]
  have hscan : scan file off (literal ++ rest) = ⟨token, [], off + literal.length, rest⟩ := by
    rw [hliteral, scan_of_trivia htrivia, hlexeme, List.drop_left]
    simp only [ofLexeme, Lexeme.length, token, hlength]
    rfl
  refine ⟨hscan, ?_⟩
  rw [scanAll_of_cons hdrop, hscan, hlexeme, List.drop_left]
  rfl

/-- A file that starts with a literal has it as its first token, unless its offsets are too large for words. -/
theorem lex_quoted (hquote : quote = '"' ∨ quote = '\'') (s : String) (rest : List UInt8) {f : File}
    (hfile : f.content = bytesOf (quoted quote s.toList) ++ rest) (hcontent : f.content.length < offsetLimit) :
    let length := (bytesOf (quoted quote s.toList)).length
    lex f = .ok (⟨.string, ⟨f.id, 0, length⟩, s, []⟩ :: (scanAll f.id length rest).1,
      (scanAll f.id length rest).2) := by
  intro length
  obtain ⟨-, hall⟩ := tokens_quoted hquote s rest f.id 0
  rw [Nat.zero_add] at hall
  rw [lex, if_pos hcontent, ofFile, hfile, hall]

end TypedScript.Token
