import TypedScript.Proofs.Text.Encoded
import TypedScript.Token.Lexer

/-!
# Spellings of tokens

What is spelled in front of a blank is read as one token.

* `Spells`: characters spell a token.
* `spells_word`, `spells_symbol`, `spells_number`, `spells_string`: the spellings of the tokens.
* `Scans`: bytes are read as tokens, and nothing is wrong with them.
-/

namespace TypedScript.Token

open TypedScript.Source TypedScript.Text
open String (utf8EncodeChar)

/-- In front of a blank the characters are read as a token of the given kind and text. -/
def Spells (cs : List Char) (k : Kind) (text : String) : Prop :=
  ∃ b bs, bytesOf cs = b :: bs ∧ ∀ rest, trivia (b :: (bs ++ 32 :: rest)) = ⟨0, none⟩ ∧
    lexeme b (bs ++ 32 :: rest) = ⟨k, bs.length, text, []⟩

theorem trivia_eq_zero {b : UInt8} (hblank : isBlank b = false) (hslash : b ≠ byte '/') (rest : List UInt8) :
    trivia (b :: rest) = ⟨0, none⟩ := by
  rw [trivia.eq_def]
  dsimp only
  rw [hblank, if_neg Bool.false_ne_true, if_neg hslash]

/-! ### Strings -/

/-- The letter that stands for a character behind a backslash in a string literal, if the character cannot stand for
itself. -/
def escapeLetter? (c : Char) : Option Char :=
  if c = '\n' then some 'n'
  else if c = '\t' then some 't'
  else if c = '\r' then some 'r'
  else if c = Char.ofNat 0 then some '0'
  else if c = '\\' ∨ c = '\'' ∨ c = '"' then some c
  else none

/-- The spelling of a character in a string literal. -/
def escaped (c : Char) : List Char :=
  match escapeLetter? c with
  | some e => ['\\', e]
  | none => [c]

/-- The string literal of a text between quotes. -/
def quoted (quote : Char) (cs : List Char) : List Char := quote :: (cs.flatMap escaped ++ [quote])

theorem escape?_of_escapeLetter? {c e : Char} (h : escapeLetter? c = some e) :
    e.toNat < 0x80 ∧ escape? (UInt8.ofNat e.toNat) = some c := by
  unfold escapeLetter? at h
  repeat' split at h
  all_goals cases h
  case isTrue | isFalse.isTrue | isFalse.isFalse.isTrue | isFalse.isFalse.isFalse.isTrue =>
    subst c
    decide
  case isFalse.isFalse.isFalse.isFalse.isTrue h => obtain rfl | rfl | rfl := h <;> decide

/-- A byte other than those of a character is not the first of them. -/
theorem head_ne {c : Char} {b x : UInt8} {bs : List UInt8} (h : utf8EncodeChar c = b :: bs) (hx : x.toNat < 0x80)
    (hne : c.toNat ≠ x.toNat) : b ≠ x := by
  rintro rfl
  by_cases hc : c.toNat < 0x80
  · rw [utf8EncodeChar_ascii hc, List.cons.injEq] at h
    apply hne
    rw [← h.1, UInt8.toNat_ofNat']
    omega
  · have := le_of_mem_utf8EncodeChar (Nat.not_lt.1 hc) b (h ▸ List.mem_cons_self)
    omega

theorem stringTail_escape {quote e : UInt8} {c : Char} (hquote : quote ≠ 92) (h : escape? e = some c)
    (rest : List UInt8) :
    stringTail quote (92 :: e :: rest) = (stringTail quote rest).after 2 [c] [] := by
  rw [stringTail, if_neg (by decide), if_neg hquote.symm, if_pos (by decide)]
  simp only [h]

theorem stringTail_char {quote : UInt8} {c : Char} (hquote : quote.toNat < 0x80) (hc : escapeLetter? c = none)
    (hne : c.toNat ≠ quote.toNat) (rest : List UInt8) :
    stringTail quote (utf8EncodeChar c ++ rest) = (stringTail quote rest).after
      (utf8EncodeChar c).length [c] [] := by
  have hplain : c ≠ '\n' ∧ c ≠ '\\' := by
    constructor <;> (rintro rfl; exact absurd hc (by decide))
  have hdecode := decodeHead_encoded c rest
  obtain ⟨b, bs, hb⟩ := List.exists_cons_of_ne_nil (String.utf8EncodeChar_ne_nil (c := c))
  have hline : b ≠ lineFeed := head_ne hb (by decide) fun h => hplain.1 (Char.toNat_inj.1 h)
  have hslash : b ≠ byte '\\' := head_ne hb (by decide) fun h => hplain.2 (Char.toNat_inj.1 h)
  rw [hb, List.cons_append] at hdecode ⊢
  rw [stringTail.eq_def]
  dsimp only
  rw [if_neg hline, if_neg (head_ne hb hquote hne), if_neg hslash, hdecode]
  simp

/-- What is escaped is read up to the quote behind it. -/
theorem stringTail_quoted {quote : Char} (hquote : quote = '"' ∨ quote = '\'') (cs : List Char)
    (rest : List UInt8) :
    stringTail (UInt8.ofNat quote.toNat) (bytesOf (cs.flatMap escaped ++ [quote]) ++ rest) =
      { length := (bytesOf (cs.flatMap escaped ++ [quote])).length, value := cs, closed := true } := by
  have hascii : quote.toNat < 0x80 := by rcases hquote with rfl | rfl <;> decide
  have hbyte : (UInt8.ofNat quote.toNat).toNat = quote.toNat := by rw [UInt8.toNat_ofNat']; omega
  have hne : UInt8.ofNat quote.toNat ≠ 92 := by rcases hquote with rfl | rfl <;> decide
  induction cs with
  | nil =>
    have hline : UInt8.ofNat quote.toNat ≠ lineFeed := by rcases hquote with rfl | rfl <;> decide
    simp only [List.flatMap_nil, List.nil_append, bytesOf_cons, bytesOf_nil, utf8EncodeChar_ascii hascii,
      List.append_nil,
      List.singleton_append]
    rw [stringTail.eq_def]
    dsimp only
    rw [if_neg hline, if_pos rfl]
    rfl
  | cons c cs ih =>
    rw [List.flatMap_cons, List.append_assoc, bytesOf_append, List.append_assoc]
    rcases he : escapeLetter? c with _ | e
    · have hchar : c.toNat ≠ (UInt8.ofNat quote.toNat).toNat := by
        rw [hbyte]
        rintro h
        obtain rfl := Char.toNat_inj.1 h
        rcases hquote with rfl | rfl <;> exact absurd he (by decide)
      rw [show escaped c = [c] by rw [escaped, he], bytesOf_cons, bytesOf_nil, List.append_nil,
        stringTail_char (by omega) he hchar, ih]
      simp [StringTail.after, Nat.add_comm]
    · obtain ⟨hascii, hescape⟩ := escape?_of_escapeLetter? he
      rw [show escaped c = ['\\', e] by
        rw [escaped, he], bytesOf_cons, bytesOf_cons, bytesOf_nil, utf8EncodeChar_ascii hascii,
        utf8EncodeChar_ascii (by decide)]
      simp only [List.cons_append, List.nil_append, List.append_nil]
      rw [show UInt8.ofNat '\\'.toNat = 92 from rfl, stringTail_escape hne hescape, ih]
      simp only [StringTail.after, List.length_cons, List.singleton_append, List.map_nil, List.append_nil]

theorem spells_string (cs : List Char) : Spells (quoted '"' cs) .string (String.ofList cs) := by
  refine ⟨34, bytesOf (cs.flatMap escaped ++ ['"']), ?_, fun rest => ⟨?_, ?_⟩⟩
  · rw [quoted, bytesOf_cons, utf8EncodeChar_ascii (by decide)]
    rfl
  · exact trivia_eq_zero (by decide) (by decide) _
  · have htail := stringTail_quoted (.inl rfl) cs (32 :: rest)
    rw [show UInt8.ofNat '"'.toNat = 34 from rfl] at htail
    have hlexeme : lexeme 34 (bytesOf (cs.flatMap escaped ++ ['"']) ++ 32 :: rest) =
      stringLexeme 34 (bytesOf (cs.flatMap escaped ++ ['"']) ++ 32 :: rest) := rfl
    rw [hlexeme, stringLexeme, htail]
    rfl

/-! ### Names and keywords -/

theorem identLength_bytesOf {cs : List Char} (h : cs.all isIdentChar = true) (rest : List UInt8) :
    identLength (bytesOf cs ++ 32 :: rest) = (bytesOf cs).length := by
  induction cs with
  | nil =>
    rw [bytesOf_nil, List.nil_append, identLength.eq_def]
    rfl
  | cons c cs ih =>
    obtain ⟨hc, h⟩ := by simpa using h
    have hdecode := decodeHead_encoded c (bytesOf cs ++ 32 :: rest)
    obtain ⟨b, bs, hb⟩ := List.exists_cons_of_ne_nil (String.utf8EncodeChar_ne_nil (c := c))
    rw [bytesOf_cons, List.append_assoc]
    rw [hb, List.cons_append] at hdecode ⊢
    rw [identLength.eq_def]
    simp only [hdecode, hc, if_true, List.length_cons, Nat.add_sub_cancel, List.drop_left]
    rw [ih (by simpa using h)]
    simp
    omega

theorem isIdentStartByte_ascii : ∀ n < 0x80, isIdentStart (Char.ofNat n) = true → isIdentStartByte
    (.ofNat n) = true := by decide

theorem isIdentStartByte_start : ∀ n < 0x80, isIdentStartByte (.ofNat n) = true → isBlank (.ofNat n) = false ∧
    UInt8.ofNat n ≠ byte '/' := by decide

/-- The first byte of a name starts an identifier. -/
theorem start_of_isIdentStart {c : Char} {b : UInt8} {bs : List UInt8} (hc : isIdentStart c = true)
    (hb : utf8EncodeChar c = b :: bs) :
    (isIdentStartByte b || decide (0x80 ≤ b)) = true ∧ isBlank b = false ∧ b ≠ byte '/' := by
  by_cases hascii : c.toNat < 0x80
  · rw [utf8EncodeChar_ascii hascii, List.cons.injEq] at hb
    obtain rfl := hb.1
    have hstart := isIdentStartByte_ascii c.toNat hascii (by rwa [Char.ofNat_toNat])
    exact ⟨by rw [hstart, Bool.true_or], isIdentStartByte_start c.toNat hascii hstart⟩
  · have hge := le_of_mem_utf8EncodeChar (Nat.not_lt.1 hascii) b (hb ▸ List.mem_cons_self)
    have hne (x : UInt8) (hx : x.toNat < 0x80) : b ≠ x := by
      rintro rfl
      omega
    refine ⟨?_, ?_, hne _ (by decide)⟩
    · rw [Bool.or_eq_true, decide_eq_true_eq]
      exact .inr hge
    · simp [isBlank, hne 9 (by decide), hne 10 (by decide), hne 13 (by decide), hne (byte ' ') (by decide)]

/-- A composed text of the characters of an identifier. -/
def isIdentifier (s : String) : Bool :=
  (match s.toList with
    | c :: cs => isIdentStart c && cs.all isIdentChar
    | [] => false) && compose s = s

/-- A text that is read as a name. -/
def isName (s : String) : Bool := isIdentifier s && (Kind.ofKeyword? s).isNone

theorem spells_identifier {s : String} (h : isIdentifier s = true) :
    Spells s.toList ((Kind.ofKeyword? s).getD .ident) s := by
  obtain ⟨hchars, hcomposed⟩ : _ ∧ compose s = s := by simpa [isIdentifier] using h
  obtain ⟨c, cs, hs, hstart, hcs⟩ : ∃ c cs, s.toList = c :: cs ∧ isIdentStart c = true ∧
    cs.all isIdentChar = true := by
    split at hchars
    · exact ⟨_, _, ‹_›, by simpa using hchars⟩
    · exact nomatch hchars
  rw [hs]
  obtain ⟨b, bs, hb⟩ := List.exists_cons_of_ne_nil (String.utf8EncodeChar_ne_nil (c := c))
  obtain ⟨hfirst, hblank, hslash⟩ := start_of_isIdentStart hstart hb
  refine ⟨b, bs ++ bytesOf cs, by rw [bytesOf_cons, hb, List.cons_append], fun rest => ⟨?_, ?_⟩⟩
  · exact trivia_eq_zero hblank hslash _
  · have hdecode := decodeHead_encoded c (bytesOf cs ++ 32 :: rest)
    have htext := ofBytesLossy_bytesOf (c :: cs)
    rw [bytesOf_cons, hb] at htext
    rw [hb, List.cons_append] at hdecode
    simp only [lexeme, hfirst, if_true, List.append_assoc, identLexeme, hdecode, hstart, List.length_cons,
      Nat.add_sub_cancel, List.drop_left, identLength_bytesOf hcs]
    have htake : (bs ++ (bytesOf cs ++ 32 :: rest)).take (bs.length + (bytesOf cs).length) = bs ++ bytesOf cs := by
      rw [← List.append_assoc, ← List.length_append, List.take_left]
    rw [htake, ← List.cons_append, htext, ← hs, String.ofList_toList, hcomposed, List.length_append]

theorem spells_name {s : String} (h : isName s = true) : Spells s.toList .ident s := by
  obtain ⟨hident, hkeyword⟩ := (Bool.and_eq_true _ _).mp h
  have hspells := spells_identifier hident
  rwa [Option.isNone_iff_eq_none.1 hkeyword] at hspells

theorem spells_keyword {k : Kind} (hk : k ∈ Kind.keywords) : Spells k.name.toList k k.name := by
  have hkeywords : ∀ k ∈ Kind.keywords, isIdentifier k.name = true ∧ Kind.ofKeyword? k.name = some k := by decide
  obtain ⟨hident, hkeyword⟩ := hkeywords k hk
  have hspells := spells_identifier hident
  rwa [hkeyword] at hspells

/-! ### Symbols -/

theorem isPrefixOf_append_blank {xs ys : List UInt8} (h : 32 ∉ xs) (rest : List UInt8) :
    xs.isPrefixOf (ys ++ 32 :: rest) = xs.isPrefixOf ys := by
  induction xs generalizing ys with
  | nil => cases ys <;> rfl
  | cons x xs ih =>
    obtain ⟨hx, h⟩ := by simpa using h
    cases ys with
    | nil => simp [List.isPrefixOf, Ne.symm hx]
    | cons y ys => simp [List.isPrefixOf, ih h]

theorem blank_notMem_name (k : Kind) : 32 ∉ encode k.name := by cases k <;> decide

/-- Whether a symbol starts with these bytes: they are no other token's, and no comment's. -/
def startsSymbol : List UInt8 → Bool
  | [] => false
  | b :: bs =>
    !isIdentStartByte b && !(0x80 ≤ b : Bool) && !isDigitByte b && b != byte '"' && b != byte '\'' && !isBlank b &&
    (b != byte '/' || bs.isEmpty) && (b != byte '.' || bs.isEmpty)

theorem spells_symbol {k : Kind} (hk : k ∈ Kind.symbols) : Spells k.name.toList k "" := by
  have hnames : ∀ k ∈ Kind.symbols, startsSymbol (encode k.name) = true ∧ (encode k.name).length =
    k.name.utf8ByteSize ∧
      Kind.symbols.find? (fun j => (encode j.name).isPrefixOf (encode k.name)) = some k := by decide
  obtain ⟨hstart, hlength, hfind⟩ := hnames k hk
  have hbytes := encode_eq k.name
  rcases hencode : encode k.name with _ | ⟨b, bs⟩
  · rw [hencode] at hstart
    exact nomatch hstart
  rw [hencode] at hstart hlength hfind hbytes
  simp only [startsSymbol, Bool.and_eq_true, Bool.not_eq_true', bne_iff_ne, Bool.or_eq_true,
    List.isEmpty_iff] at hstart
  obtain ⟨⟨⟨⟨⟨⟨⟨hident, hlow⟩, hdigit⟩, hdouble⟩, hsingle⟩, hblank⟩, hslash⟩, hpoint⟩ := hstart
  refine ⟨b, bs, hbytes.symm, fun rest => ⟨?_, ?_⟩⟩
  · by_cases hb : b = byte '/'
    · obtain rfl := hslash.resolve_left (Decidable.not_not.2 hb)
      rw [hb, trivia.eq_def]
      rfl
    · exact trivia_eq_zero hblank hb _
  · have hfound : Kind.symbols.find? (fun j => (encode j.name).isPrefixOf (b :: (bs ++ 32 :: rest))) = some k := by
      rw [← hfind]
      congr 1
      funext j
      rw [← List.cons_append]
      exact isPrefixOf_append_blank (blank_notMem_name j) rest
    have hnumber : (decide (b = byte '.') && ((bs ++ 32 :: rest).head?.elim false isDigitByte)) = false := by
      by_cases hb : b = byte '.'
      · obtain rfl := hpoint.resolve_left (Decidable.not_not.2 hb)
        rw [hb]
        rfl
      · rw [decide_eq_false hb, Bool.false_and]
    simp only [lexeme, hident, hlow, hdigit, hnumber, symbolLexeme, hfound, hdouble, hsingle,
      decide_false, Bool.or_false,
      Bool.false_eq_true, if_false, ← hlength, List.length_cons, Nat.add_sub_cancel]

/-! ### Numbers -/

def isHexDigit (c : Char) : Bool := c.toNat < 0x80 && isHexByte (.ofNat c.toNat)

/-- Nothing, or digits behind a point. -/
inductive IsFraction : List Char → Prop
  | none : IsFraction []
  | digits {ds : List Char} : ds ≠ [] → ds.all Char.isDigit = true → IsFraction ('.' :: ds)

/-- Nothing, or digits behind a mark and perhaps a sign. -/
inductive IsExponent : List Char → Prop
  | none : IsExponent []
  | digits {e : Char} {sign ds : List Char} : e = 'e' ∨ e = 'E' → sign = [] ∨ sign = ['+'] ∨
      sign = ['-'] → ds ≠ [] →
    ds.all Char.isDigit = true → IsExponent (e :: (sign ++ ds))

/-- The spelling of a number: hexadecimal digits behind a mark, or decimal digits with or without a fraction and
an exponent. -/
inductive IsNumeral : List Char → Prop
  | hex {x : Char} {ds : List Char} : x = 'x' ∨ x = 'X' → ds ≠ [] → ds.all isHexDigit = true → IsNumeral
      ('0' :: x :: ds)
  | decimal {whole fraction exponent : List Char} : whole.all Char.isDigit = true → IsFraction fraction →
    IsExponent exponent → whole ≠ [] ∨ fraction ≠ [] → IsNumeral (whole ++ fraction ++ exponent)

theorem runLength_bytesOf {p : UInt8 → Bool} {cs : List Char} {b : UInt8}
    (h : ∀ c ∈ cs, c.toNat < 0x80 ∧ p (.ofNat c.toNat) = true) (hb : p b = false) (rest : List UInt8) :
    runLength p (bytesOf cs ++ b :: rest) = (bytesOf cs).length := by
  have hbytes : ∀ x ∈ bytesOf cs, p x = true := by
    rw [bytesOf_ascii fun c hc => (h c hc).1]
    intro x hx
    obtain ⟨c, hc, rfl⟩ := List.mem_map.1 hx
    exact (h c hc).2
  rw [runLength, List.takeWhile_append_of_pos hbytes, List.takeWhile_cons_of_neg (by simp [hb]), List.append_nil]

theorem isDigitByte_ascii : ∀ n < 0x80, (Char.ofNat n).isDigit = isDigitByte (.ofNat n) := by decide

theorem digit_ascii {cs : List Char} (h : cs.all Char.isDigit = true) :
    ∀ c ∈ cs, c.toNat < 0x80 ∧ isDigitByte (.ofNat c.toNat) = true := by
  intro c hc
  have hdigit := List.all_eq_true.1 h c hc
  have hascii : c.toNat < 0x80 := by
    have hle : c.toNat ≤ 57 := UInt32.le_iff_toNat_le.1 (of_decide_eq_true ((Bool.and_eq_true _ _).mp hdigit).2)
    omega
  exact ⟨hascii, by rw [← isDigitByte_ascii _ hascii, Char.ofNat_toNat, hdigit]⟩

theorem numberLexeme_bytesOf (cs : List Char) (rest : List UInt8) :
    numberLexeme (bytesOf cs ++ 32 :: rest) (bytesOf cs).length =
      ⟨.number, (bytesOf cs).length - 1, String.ofList cs, []⟩ := by
  rw [numberLexeme, List.drop_left, List.take_left, ofBytesLossy_bytesOf]
  rfl

theorem scanNumber_hex {x : Char} {digits : List Char} (hx : x = 'x' ∨ x = 'X') (hne : digits ≠ [])
    (hdigits : digits.all isHexDigit = true) (rest : List UInt8) :
    scanNumber (bytesOf ('0' :: x :: digits) ++ 32 :: rest) =
      ⟨.number, (bytesOf ('0' :: x :: digits)).length - 1, String.ofList ('0' :: x :: digits), []⟩ := by
  have hrun : runLength isHexByte (bytesOf digits ++ 32 :: rest) = (bytesOf digits).length :=
    runLength_bytesOf (fun c hc => by simpa [isHexDigit] using List.all_eq_true.1 hdigits c hc) (by decide) rest
  have hpos : (bytesOf digits).length ≠ 0 := fun h => bytesOf_ne_nil hne (List.length_eq_zero_iff.1 h)
  have hnumber := numberLexeme_bytesOf ('0' :: x :: digits) rest
  have hlength : (bytesOf ('0' :: x :: digits)).length = (bytesOf digits).length + 2 := by
    rcases hx with rfl | rfl <;> rfl
  rw [← hnumber, hlength]
  have hscan (y : UInt8) (hy : y = 120 ∨ y = 88) : scanNumber (48 :: y :: (bytesOf digits ++ 32 :: rest)) =
      numberLexeme (48 :: y :: (bytesOf digits ++ 32 :: rest)) ((bytesOf digits).length + 2) := by
    rcases hy with rfl | rfl <;> simp only [scanNumber, hrun, if_neg hpos]
  rcases hx with rfl | rfl
  · exact hscan 120 (.inl rfl)
  · exact hscan 88 (.inr rfl)

/-- The bytes of digits, with or without a fraction, in front of something else. -/
theorem mantissaLength_bytesOf {whole fraction : List Char} {b : UInt8} (hwhole : whole.all Char.isDigit = true)
    (hfraction : IsFraction fraction)
    (hb : isDigitByte b = false) (hpoint : b ≠ 46) (rest : List UInt8) :
    mantissaLength (bytesOf (whole ++ fraction) ++ b :: rest) = (bytesOf (whole ++ fraction)).length := by
  have hwhole := digit_ascii hwhole
  cases hfraction with
  | none =>
    rw [List.append_nil, mantissaLength, runLength_bytesOf hwhole hb, List.drop_left]
    split
    · rename_i heq
      exact absurd (List.cons.inj heq).1 hpoint
    · rfl
  | digits hne hdigits =>
    have hdigits := digit_ascii hdigits
    obtain ⟨d, ds, rfl⟩ := List.exists_cons_of_ne_nil hne
    obtain ⟨hd, hds⟩ := List.forall_mem_cons.1 hdigits
    have hbytes : bytesOf (whole ++ '.' :: d :: ds) ++ b :: rest =
        bytesOf whole ++ 46 :: UInt8.ofNat d.toNat :: (bytesOf ds ++ b :: rest) := by
      rw [bytesOf_append, bytesOf_cons, bytesOf_cons, utf8EncodeChar_ascii hd.1, utf8EncodeChar_ascii (by decide)]
      simp
    have hlength : (bytesOf (whole ++ '.' :: d :: ds)).length =
      (bytesOf whole).length + 2 + (bytesOf ds).length := by
      rw [bytesOf_append, bytesOf_cons, bytesOf_cons, utf8EncodeChar_ascii hd.1, utf8EncodeChar_ascii (by decide)]
      simp
      omega
    rw [hbytes, mantissaLength, runLength_bytesOf hwhole (by decide), List.drop_left]
    simp only [hd.2, if_true, runLength_bytesOf hds hb, hlength]

def isDecimalChar (c : Char) : Bool := c.isDigit || c = '.' || c = 'e' || c = 'E' || c = '+' || c = '-'

theorem decimal_ascii {c : Char} (h : isDecimalChar c = true) : c.toNat < 0x80 ∧ c.toNat ≠ 120 ∧ c.toNat ≠ 88 := by
  simp only [isDecimalChar, Bool.or_eq_true, decide_eq_true_eq] at h
  obtain ((((h | rfl) | rfl) | rfl) | rfl) | rfl := h
  · have hle : c.toNat ≤ 57 := UInt32.le_iff_toNat_le.1 (of_decide_eq_true ((Bool.and_eq_true _ _).mp h).2)
    omega
  all_goals decide

theorem all_isDecimalChar {cs : List Char} (h : cs.all Char.isDigit = true) : cs.all isDecimalChar = true :=
  List.all_eq_true.2 fun c hc => by simp [isDecimalChar, List.all_eq_true.1 h c hc]

/-- The second byte of a decimal number is no hexadecimal mark. -/
theorem second_ne_of_decimal {cs : List Char} (hne : cs ≠ []) (h : cs.all isDecimalChar = true) {x y : UInt8}
    {rest more : List UInt8} (heq : bytesOf cs ++ 32 :: rest = x :: y :: more) : y ≠ 120 ∧ y ≠ 88 := by
  have hchars : ∀ c ∈ cs, _ := fun c hc => decimal_ascii (List.all_eq_true.1 h c hc)
  rw [bytesOf_ascii fun c hc => (hchars c hc).1] at heq
  match cs, hne with
  | [_], _ =>
    obtain rfl : 32 = y := (List.cons.inj (List.cons.inj heq).2).1
    decide
  | _ :: c :: _, _ =>
    obtain ⟨hascii, hx, hX⟩ := hchars c (by simp)
    obtain rfl : UInt8.ofNat c.toNat = y := (List.cons.inj (List.cons.inj heq).2).1
    have hvalue : (UInt8.ofNat c.toNat).toNat = c.toNat := by rw [UInt8.toNat_ofNat']; omega
    constructor <;> intro h <;> rw [h] at hvalue
    · exact hx hvalue.symm
    · exact hX hvalue.symm

/-- The first byte behind the mark of an exponent tells whether there is a sign. -/
theorem sign_bytesOf {sign digits : List Char} (hsign : sign = [] ∨ sign = ['+'] ∨ sign = ['-']) (hne : digits ≠ [])
    (hdigits : digits.all Char.isDigit = true) (rest : List UInt8) :
    ∃ s tail, bytesOf (sign ++ digits) ++ rest = s :: tail ∧ (if s = byte '+' ∨ s = byte '-' then 1 else 0) =
      sign.length := by
  obtain rfl | rfl | rfl := hsign
  · obtain ⟨d, ds, rfl⟩ := List.exists_cons_of_ne_nil hne
    obtain ⟨hascii, hdigit⟩ := digit_ascii hdigits d List.mem_cons_self
    have hsigns : isDigitByte (byte '+') = false ∧ isDigitByte (byte '-') = false := by decide
    refine ⟨.ofNat d.toNat, bytesOf ds ++ rest, ?_, if_neg ?_⟩
    · rw [List.nil_append, bytesOf_cons, utf8EncodeChar_ascii hascii]
      rfl
    · rintro (h | h) <;> rw [h] at hdigit
      · exact absurd hdigit (by simp [hsigns])
      · exact absurd hdigit (by simp [hsigns])
  · exact ⟨43, bytesOf digits ++ rest, rfl, rfl⟩
  · exact ⟨45, bytesOf digits ++ rest, rfl, rfl⟩

theorem scanNumber_decimal {whole fraction exponent : List Char} (hwhole : whole.all Char.isDigit = true)
    (hfraction : IsFraction fraction)
    (hexponent : IsExponent exponent)
    (hne : whole ≠ [] ∨ fraction ≠ []) (rest : List UInt8) :
    scanNumber (bytesOf (whole ++ fraction ++ exponent) ++ 32 :: rest) =
      ⟨.number, (bytesOf (whole ++ fraction ++ exponent)).length - 1, String.ofList (whole ++ fraction ++ exponent),
        []⟩ := by
  have hchars : (whole ++ fraction ++ exponent).all isDecimalChar = true := by
    rw [List.all_append, List.all_append, all_isDecimalChar hwhole, Bool.true_and, Bool.and_eq_true]
    constructor
    · cases hfraction with
      | none => rfl
      | digits _ hdigits =>
        rw [List.all_cons, all_isDecimalChar hdigits]
        rfl
    · cases hexponent with
      | none => rfl
      | digits he hsign _ hdigits =>
        rw [List.all_cons, List.all_append, all_isDecimalChar hdigits]
        obtain rfl | rfl := he <;> obtain rfl | rfl | rfl := hsign <;> rfl
  have hnil : whole ++ fraction ++ exponent ≠ [] := by
    rcases hne with h | h <;> simp [h]
  rw [← numberLexeme_bytesOf]
  unfold scanNumber
  split
  · exact absurd rfl (second_ne_of_decimal hnil hchars ‹_›).1
  · exact absurd rfl (second_ne_of_decimal hnil hchars ‹_›).2
  · cases hexponent with
    | none =>
      rw [List.append_nil, mantissaLength_bytesOf hwhole hfraction (by decide) (by decide)]
      dsimp only
      rw [List.drop_left]
      rfl
    | @digits e sign digits he hsign hdigitsNe hall =>
      have hdigits := digit_ascii hall
      have hlength : (bytesOf digits).length ≠ 0 := fun h => bytesOf_ne_nil hdigitsNe (List.length_eq_zero_iff.1 h)
      have hsignAscii : ∀ c ∈ sign, c.toNat < 0x80 := by obtain rfl | rfl | rfl := hsign <;> simp
      have hsignLength : (bytesOf sign).length = sign.length := by rw [bytesOf_ascii hsignAscii, List.length_map]
      have he : utf8EncodeChar e = [.ofNat e.toNat] ∧ isDigitByte (.ofNat e.toNat) = false ∧
        UInt8.ofNat e.toNat ≠ 46 ∧
          (UInt8.ofNat e.toNat = byte 'e' ∨ UInt8.ofNat e.toNat = byte 'E') := by
        obtain rfl | rfl := he <;> decide
      have hbytes : bytesOf (whole ++ fraction ++ e :: (sign ++ digits)) ++ 32 :: rest =
          bytesOf (whole ++ fraction) ++ .ofNat e.toNat :: (bytesOf (sign ++ digits) ++ 32 :: rest) := by
        rw [bytesOf_append, bytesOf_cons, he.1]
        simp
      have htotal : (bytesOf (whole ++ fraction ++ e :: (sign ++ digits))).length =
          (bytesOf (whole ++ fraction)).length + 1 + sign.length + (bytesOf digits).length := by
        rw [bytesOf_append, bytesOf_cons, he.1, bytesOf_append sign, ← hsignLength]
        simp only [List.length_append, List.length_singleton]
        omega
      have hrun : runLength isDigitByte ((bytesOf (sign ++ digits) ++ 32 :: rest).drop sign.length) =
          (bytesOf digits).length := by
        rw [bytesOf_append, List.append_assoc, ← hsignLength, List.drop_left]
        exact runLength_bytesOf hdigits (by decide) rest
      rw [htotal, hbytes, mantissaLength_bytesOf hwhole hfraction he.2.1 he.2.2.1]
      dsimp only
      obtain ⟨b, tail, hcons, hb⟩ := sign_bytesOf hsign hdigitsNe hall (32 :: rest)
      rw [hcons] at hrun
      rw [List.drop_left, hcons]
      simp only [if_pos he.2.2.2, hb, hrun, if_neg hlength]

theorem IsNumeral.scanNumber {cs : List Char} (h : IsNumeral cs) (rest : List UInt8) :
    scanNumber (bytesOf cs ++ 32 :: rest) = ⟨.number, (bytesOf cs).length - 1, String.ofList cs, []⟩ := by
  cases h with
  | hex hx hne hdigits => exact scanNumber_hex hx hne hdigits rest
  | decimal hwhole hfraction hexponent hne => exact scanNumber_decimal hwhole hfraction hexponent hne rest

/-- A number starts with a digit, or with a point in front of a digit. -/
theorem IsNumeral.start {cs : List Char} (h : IsNumeral cs) : ∃ b bs, bytesOf cs = b :: bs ∧
    (isDigitByte b || (decide (b = byte '.') && bs.head?.elim false isDigitByte)) = true := by
  have hdigits {c : Char} {cs : List Char} (h : (c :: cs).all Char.isDigit = true) (more : List Char) :
      ∃ b bs, bytesOf (c :: cs ++ more) = b :: bs ∧ isDigitByte b = true := by
    obtain ⟨hascii, hdigit⟩ := digit_ascii h c List.mem_cons_self
    refine ⟨.ofNat c.toNat, bytesOf (cs ++ more), ?_, hdigit⟩
    rw [List.cons_append, bytesOf_cons, utf8EncodeChar_ascii hascii]
    rfl
  cases h with
  | hex hx hne hdigits => exact ⟨48, _, rfl, rfl⟩
  | @decimal whole _ exponent hwhole hfraction _ hne =>
    rcases whole with _ | ⟨c, whole⟩
    · cases hfraction with
      | none => simp at hne
      | digits hdigitsNe hall =>
        obtain ⟨d, ds, rfl⟩ := List.exists_cons_of_ne_nil hdigitsNe
        obtain ⟨b, bs, hbytes, hb⟩ := hdigits hall exponent
        refine ⟨46, b :: bs, ?_, ?_⟩
        · rw [← hbytes]
          rfl
        · rw [List.head?_cons, Option.elim_some, hb]
          rfl
    · obtain ⟨b, bs, hbytes, hb⟩ := hdigits hwhole (_ ++ exponent)
      exact ⟨b, bs, by rw [List.append_assoc, hbytes], by rw [hb, Bool.true_or]⟩

theorem number_start : ∀ n < 0x100, (isDigitByte (.ofNat n) || decide (UInt8.ofNat n = byte '.')) = true →
    isIdentStartByte (.ofNat n) = false ∧ decide (0x80 ≤ UInt8.ofNat n) = false ∧ isBlank (.ofNat n) = false ∧
      UInt8.ofNat n ≠ byte '/' := by decide +kernel

theorem spells_number {cs : List Char} (h : IsNumeral cs) : Spells cs .number (String.ofList cs) := by
  obtain ⟨b, bs, hbytes, hstart⟩ := h.start
  have hfirst : (isDigitByte b || decide (b = byte '.')) = true := by
    simp only [Bool.or_eq_true, Bool.and_eq_true] at hstart ⊢
    exact hstart.imp id And.left
  have hnumber := number_start b.toNat b.toNat_lt
  rw [UInt8.ofNat_toNat] at hnumber
  obtain ⟨hident, hlow, hblank, hslash⟩ := hnumber hfirst
  refine ⟨b, bs, hbytes, fun rest => ⟨trivia_eq_zero hblank hslash _, ?_⟩⟩
  have hscan := h.scanNumber rest
  have hnumber : (isDigitByte b || (decide (b = byte '.') && (bs ++ 32 :: rest).head?.elim false isDigitByte)) =
    true := by
    cases bs with
    | nil => simp_all
    | cons => exact hstart
  rw [hbytes, List.cons_append, List.length_cons, Nat.add_sub_cancel] at hscan
  simp only [lexeme, hident, hlow, hnumber, hscan, Bool.or_false, Bool.false_eq_true, if_false, if_true]

end TypedScript.Token
