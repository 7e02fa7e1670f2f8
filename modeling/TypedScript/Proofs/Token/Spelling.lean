import TypedScript.Proofs.Token.Spans

/-!
# Characters that identifiers are free of

A dot is no part of an identifier: no character that is spelled in one is a dot, and no canonical mapping leads to
it or from it. So whatever is spelled in a file, the text of an identifier is free of dots. An equals sign is no
part of one either, nor is what an equals sign and a stroke compose to.

* `Foreign`: characters that decomposing and composing make of each other only, and that identifiers are free of.
* `forall_notMem_scanAll`: no such character is in the text of an identifier.
-/

namespace TypedScript.Text

/-! ### Composition -/

theorem inRanges_toList (table : Array (Nat × Nat)) (c : Char) :
    inRanges table c = table.toList.any fun r => r.1 ≤ c.toNat && c.toNat ≤ r.2 := by
  rw [inRanges, Array.any_toList]

/-- Decomposing makes the characters of these codes of such characters only, and so does composing. -/
structure Closed (codes : List Nat) : Prop where
  plain : ∀ n ∈ codes, 0 < n ∧ n < 0xAC00 ∧ ¬ (0x1100 ≤ n ∧ n < 0x1200) ∧ n ≠ 0x34F
  single : ∀ p ∈ singletonMappings.toList, p.2 ∈ codes → p.1 ∈ codes
  pair : ∀ p ∈ pairMappings.toList, (p.2.1 ∈ codes ∨ p.2.2 ∈ codes → p.1 ∈ codes) ∧ (p.1 ∈ codes → p.2.1 ∈ codes)

set_option maxRecDepth 16000 in
theorem singletonMappings_ne : ∀ p ∈ singletonMappings.toList, p.2 ≠ 46 ∧ p.2 ≠ 61 ∧
    p.2 ≠ 0x2260 := by decide +kernel

set_option maxRecDepth 16000 in
theorem pairMappings_ne_dot : ∀ p ∈ pairMappings.toList, p.1 ≠ 46 ∧ p.2.1 ≠ 46 ∧ p.2.2 ≠ 46 := by decide +kernel

set_option maxRecDepth 16000 in
theorem pairMappings_equals : ∀ p ∈ pairMappings.toList, p.1 ≠ 61 ∧ p.2.1 ≠ 0x2260 ∧ p.2.2 ≠ 61 ∧ p.2.2 ≠ 0x2260 ∧
    (p.2.1 = 61 ↔ p.1 = 0x2260) := by decide +kernel

theorem closed_dot : Closed [46] where
  plain := by decide
  single p hp hmem := absurd (List.mem_singleton.1 hmem) (singletonMappings_ne p hp).1
  pair p hp := by
    have hne := pairMappings_ne_dot p hp
    simp only [List.mem_singleton]
    omega

/-- An equals sign and a stroke compose to the sign of what is not equal. -/
theorem closed_equals : Closed [61, 0x2260] where
  plain := by decide
  single p hp hmem := by
    have hne := singletonMappings_ne p hp
    simp only [List.mem_cons, List.not_mem_nil, or_false] at hmem
    omega
  pair p hp := by
    have hne := pairMappings_equals p hp
    simp only [List.mem_cons, List.not_mem_nil, or_false]
    omega

namespace Closed

variable {codes : List Nat} {x : Char} (h : Closed codes)
include h

theorem mem_of_ofNat {n : Nat} (hn : (Char.ofNat n).toNat ∈ codes) : n ∈ codes := by
  unfold Char.ofNat at hn
  by_cases hvalid : n.isValidChar
  · rwa [dif_pos hvalid] at hn
  · rw [dif_neg hvalid] at hn
    exact absurd (h.plain 0 hn).1 (Nat.lt_irrefl 0)

/-- None of them is a letter of a Hangul syllable. -/
theorem notMem_hangulLetters? {n : Nat} {letters : List Char} (hletters : hangulLetters? n = some letters)
    (hx : x ∈ letters) :
    x.toNat ∉ codes := by
  unfold hangulLetters? at hletters
  split at hletters
  · obtain rfl := Option.some.inj hletters
    have hne (m : Nat) (hm : 0x1100 ≤ m) (hm' : m < 0x1200) : (Char.ofNat m).toNat ∉ codes := fun hmem =>
      (h.plain m (h.mem_of_ofNat hmem)).2.2.1 ⟨hm, hm'⟩
    rcases List.mem_append.1 hx with hx | hx
    · simp only [List.mem_cons, List.not_mem_nil, or_false] at hx
      rcases hx with rfl | rfl <;> exact hne _ (by omega) (by omega)
    · split at hx
      · exact nomatch hx
      · rw [List.mem_singleton] at hx
        rw [hx]
        exact hne _ (by omega) (by omega)
  · exact nomatch hletters

set_option maxRecDepth 16000 in
omit h in
theorem decomposeChar_succ (depth : Nat) (c : Char) : decomposeChar (depth + 1) c =
    match hangulLetters? c.toNat with
    | some letters => letters
    | none =>
      match singletonMappings.find? (·.1 = c.toNat) with
      | some (_, m) => decomposeChar depth (Char.ofNat m)
      | none =>
        match pairMappings.find? (·.1 = c.toNat) with
        | some (_, a, b) => decomposeChar depth (Char.ofNat a) ++ decomposeChar depth (Char.ofNat b)
        | none => [c] := by
  delta decomposeChar
  rfl

theorem mem_of_decomposeChar (depth : Nat) (c : Char) (hx : x ∈ decomposeChar depth c) (hcode : x.toNat ∈ codes) :
    c.toNat ∈ codes := by
  induction depth generalizing c with
  | zero =>
    have hone : x ∈ [c] := hx
    exact List.mem_singleton.1 hone ▸ hcode
  | succ depth ih =>
    rw [decomposeChar_succ] at hx
    split at hx
    · rename_i letters hletters
      exact absurd hcode (h.notMem_hangulLetters? hletters hx)
    split at hx
    · rename_i n m hm
      have heq : n = c.toNat := by simpa using Array.find?_some hm
      exact heq ▸ h.single _ (Array.mem_toList_iff.2 (Array.mem_of_find?_eq_some hm)) (h.mem_of_ofNat (ih _ hx))
    split at hx
    · rename_i n a b hab
      have heq : n = c.toNat := by simpa using Array.find?_some hab
      refine heq ▸ (h.pair _ (Array.mem_toList_iff.2 (Array.mem_of_find?_eq_some hab))).1 ?_
      rcases List.mem_append.1 hx with hx | hx
      · exact .inl (h.mem_of_ofNat (ih _ hx))
      · exact .inr (h.mem_of_ofNat (ih _ hx))
    · exact List.mem_singleton.1 hx ▸ hcode

theorem exists_mem_of_decomposeText {run : Nat} {cs : List Char} (hx : x ∈ decomposeText run cs)
    (hcode : x.toNat ∈ codes) :
    ∃ y ∈ cs, y.toNat ∈ codes := by
  induction cs generalizing run with
  | nil => exact nomatch hx
  | cons c rest ih =>
    have hparts {run' : Nat} (hx : x ∈ decomposeChar mappingDepth c ++ decomposeText run' rest) :
        ∃ y ∈ c :: rest, y.toNat ∈ codes := by
      rcases List.mem_append.1 hx with hx | hx
      · exact ⟨c, List.mem_cons_self, h.mem_of_decomposeChar _ c hx hcode⟩
      · obtain ⟨y, hy, hcode⟩ := ih hx
        exact ⟨y, List.mem_cons_of_mem _ hy, hcode⟩
    simp only [decomposeText] at hx
    split at hx
    · exact hparts hx
    split at hx
    · -- the joiner that cuts a long run of marks
      rw [List.cons_append, List.mem_cons] at hx
      rcases hx with rfl | hx
      · exact absurd rfl (h.plain _ hcode).2.2.2
      · exact hparts hx
    · exact hparts hx

omit h in
theorem mem_of_mem_orderMarks {c : Char} {run cs : List Char} (h : c ∈ orderMarks run cs) : c ∈ run ∨ c ∈ cs := by
  have hsorted (run : List Char) (h : c ∈ orderMarks.sorted run) : c ∈ run := by
    simpa [orderMarks.sorted] using h
  induction cs generalizing run with
  | nil => exact .inl (hsorted run h)
  | cons d rest ih =>
    rw [orderMarks] at h
    split at h
    · rcases List.mem_append.1 h with h | h
      · exact .inl (hsorted run h)
      · rcases List.mem_cons.1 h with rfl | h
        · exact .inr List.mem_cons_self
        · exact .inr (List.mem_cons_of_mem _ ((ih h).resolve_left (by simp)))
    · rcases ih h with h | h
      · rcases List.mem_cons.1 h with rfl | h
        · exact .inr List.mem_cons_self
        · exact .inl h
      · exact .inr (List.mem_cons_of_mem _ h)

/-- One of them is only composed of one of them and another character. -/
theorem mem_of_composePair? {a b : Char} (hx : composePair? a b = some x) (hcode : x.toNat ∈ codes) :
    a.toNat ∈ codes := by
  unfold composePair? at hx
  dsimp only at hx
  split at hx
  · obtain rfl := Option.some.inj hx
    have hlt := (h.plain _ (h.mem_of_ofNat hcode)).2.1
    omega
  split at hx
  · obtain rfl := Option.some.inj hx
    have hlt := (h.plain _ (h.mem_of_ofNat hcode)).2.1
    omega
  · obtain ⟨p, hp, rfl⟩ := Option.map_eq_some_iff.1 hx
    have hfound := Array.find?_some hp
    simp only [Bool.and_eq_true, decide_eq_true_eq] at hfound
    have hpair := (h.pair _ (Array.mem_toList_iff.2 (Array.mem_of_find?_eq_some hp))).2 (h.mem_of_ofNat hcode)
    exact hfound.1.1 ▸ hpair

omit h in
theorem composeFrom_cons (starter : Char) (kept : List Char) (c : Char) (rest : List Char) :
    composeFrom starter kept (c :: rest) =
      match if (match kept with
        | [] => false
        | last :: _ => combiningClass c ≤ combiningClass last) then none else composePair? starter c with
      | some p => composeFrom p kept rest
      | none =>
        if combiningClass c = 0 then starter :: kept.reverse ++ composeFrom c [] rest
        else composeFrom starter (c :: kept) rest := by
  delta composeFrom
  rfl

theorem exists_mem_of_composeFrom {starter : Char} {kept cs : List Char} (hx : x ∈ composeFrom starter kept cs)
    (hcode : x.toNat ∈ codes) : ∃ y ∈ starter :: (kept ++ cs), y.toNat ∈ codes := by
  induction cs generalizing starter kept with
  | nil =>
    have hkept : x ∈ starter :: kept.reverse := hx
    exact ⟨x, by simpa using hkept, hcode⟩
  | cons c rest ih =>
    rw [composeFrom_cons] at hx
    split at hx
    · rename_i p hp
      obtain ⟨y, hy, hcode⟩ := ih hx
      rcases List.mem_cons.1 hy with rfl | hy
      · exact ⟨starter, List.mem_cons_self, h.mem_of_composePair? (Option.ite_none_left_eq_some.1 hp).2 hcode⟩
      · exact ⟨y, by grind, hcode⟩
    split at hx
    · simp only [List.cons_append, List.mem_cons, List.mem_append, List.mem_reverse] at hx
      rcases hx with rfl | hx | hx
      · exact ⟨x, List.mem_cons_self, hcode⟩
      · exact ⟨x, by simp [hx], hcode⟩
      · obtain ⟨y, hy, hcode⟩ := ih hx
        exact ⟨y, by grind, hcode⟩
    · obtain ⟨y, hy, hcode⟩ := ih hx
      exact ⟨y, by grind, hcode⟩

theorem exists_mem_of_compose {s : String} (hx : x ∈ (compose s).toList) (hcode : x.toNat ∈ codes) :
    ∃ y ∈ s.toList, y.toNat ∈ codes := by
  unfold compose at hx
  split at hx
  · exact ⟨x, hx, hcode⟩
  split at hx
  · simp at hx
  · rename_i c rest heq
    rw [String.toList_ofList] at hx
    obtain ⟨y, hy, hcode⟩ := h.exists_mem_of_composeFrom hx hcode
    rw [List.nil_append, ← heq] at hy
    exact h.exists_mem_of_decomposeText ((mem_of_mem_orderMarks hy).resolve_left (by simp)) hcode

end Closed

/-! ### Decoding -/

/-- The bytes behind a character are of no matter for it. -/
theorem decodeHead_take {bytes : List UInt8} {c : Char} {k : Nat} (h : decodeHead bytes = some (c, k))
    (more : List UInt8) :
    decodeHead (bytes.take k ++ more) = some (c, k) := by
  cases bytes with
  | nil => cases h
  | cons b rest =>
    simp only [decodeHead] at h
    split at h
    · rename_i h₁
      obtain ⟨rfl, rfl⟩ := Prod.mk.inj (Option.some.inj h)
      exact if_pos h₁
    rename_i h₁
    split at h
    · cases h
    rename_i h₂
    split at h
    · rename_i h₃
      split at h
      · obtain ⟨x, hx, h⟩ := Option.bind_eq_some_iff.1 h
        obtain ⟨c', hc, h⟩ := Option.bind_eq_some_iff.1 h
        obtain ⟨rfl, rfl⟩ := Prod.mk.inj (Option.some.inj h)
        refine (if_neg h₁).trans <| (if_neg h₂).trans <| (if_pos h₃).trans ?_
        exact Option.bind_eq_some_iff.2 ⟨x, hx, Option.bind_eq_some_iff.2 ⟨c', hc, rfl⟩⟩
      · cases h
    rename_i h₃
    split at h
    · rename_i h₄
      split at h
      · obtain ⟨x, hx, h⟩ := Option.bind_eq_some_iff.1 h
        obtain ⟨y, hy, h⟩ := Option.bind_eq_some_iff.1 h
        obtain ⟨c', hc, h⟩ := Option.bind_eq_some_iff.1 h
        obtain ⟨rfl, rfl⟩ := Prod.mk.inj (Option.some.inj h)
        refine (if_neg h₁).trans <| (if_neg h₂).trans <| (if_neg h₃).trans <| (if_pos h₄).trans ?_
        refine Option.bind_eq_some_iff.2 ⟨x, hx, Option.bind_eq_some_iff.2 ⟨y, hy, ?_⟩⟩
        exact Option.bind_eq_some_iff.2 ⟨c', hc, rfl⟩
      · cases h
    rename_i h₄
    split at h
    · rename_i h₅
      split at h
      · obtain ⟨x, hx, h⟩ := Option.bind_eq_some_iff.1 h
        obtain ⟨y, hy, h⟩ := Option.bind_eq_some_iff.1 h
        obtain ⟨z, hz, h⟩ := Option.bind_eq_some_iff.1 h
        obtain ⟨c', hc, h⟩ := Option.bind_eq_some_iff.1 h
        obtain ⟨rfl, rfl⟩ := Prod.mk.inj (Option.some.inj h)
        refine (if_neg h₁).trans <| (if_neg h₂).trans <| (if_neg h₃).trans <| (if_neg h₄).trans <|
          (if_pos h₅).trans ?_
        refine Option.bind_eq_some_iff.2 ⟨x, hx, Option.bind_eq_some_iff.2 ⟨y, hy, ?_⟩⟩
        exact Option.bind_eq_some_iff.2 ⟨z, hz, Option.bind_eq_some_iff.2 ⟨c', hc, rfl⟩⟩
      · cases h
    · cases h

theorem decodeLossy_cons {b : UInt8} {rest more : List UInt8} {c : Char} {k : Nat}
    (h : decodeHead (b :: rest) = some (c, k)) :
    decodeLossy (b :: (rest.take (k - 1) ++ more)) = c :: decodeLossy more := by
  have hk := decodeHead_pos h
  have htake : (b :: rest).take k = b :: rest.take (k - 1) := by
    obtain ⟨j, rfl⟩ : ∃ j, k = j + 1 := ⟨k - 1, by omega⟩
    rfl
  have hhead := decodeHead_take h more
  rw [htake, List.cons_append] at hhead
  have hlength : (rest.take (k - 1)).length = k - 1 := by
    have hle := le_length_of_decodeHead h
    simp at hle ⊢
    omega
  rw [decodeLossy, hhead]
  change c :: decodeLossy ((rest.take (k - 1) ++ more).drop (k - 1)) = _
  rw [List.drop_left' hlength]

end TypedScript.Text

namespace TypedScript.Token

open TypedScript.Source TypedScript.Text

/-! ### Identifiers -/

/-- Characters that decomposing and composing make of each other only, and that are no part of an identifier. -/
structure Foreign (codes : List Nat) : Prop extends Closed codes where
  outside : ∀ c : Char, isIdentChar c = true → c.toNat ∉ codes

theorem foreign_of_codes {codes : List Nat} (h : Closed codes)
    (hcodes : ∀ n ∈ codes, isIdentChar (Char.ofNat n) = false) :
    Foreign codes where
  toClosed := h
  outside c hc hmem := by
    have hnone := hcodes _ hmem
    rw [Char.ofNat_toNat, hc] at hnone
    exact nomatch hnone

theorem foreign_dot : Foreign [46] := foreign_of_codes closed_dot (by decide +kernel)

set_option maxRecDepth 16000 in
/-- The tables are searched as lists, which is what the kernel is quick at. -/
theorem isIdentChar_notEqual : isIdentChar (Char.ofNat 0x2260) = false := by
  simp only [isIdentChar, isIdentStart, isLetter, isDecimalDigit, isCombiningMark, inRanges_toList]
  decide +kernel

theorem foreign_equals : Foreign [61, 0x2260] := by
  refine foreign_of_codes closed_equals (List.forall_mem_cons.2 ⟨by decide +kernel, ?_⟩)
  exact List.forall_mem_singleton.2 isIdentChar_notEqual

/-- What is taken for an identifier consists of characters of identifiers. -/
theorem isIdentChar_of_mem_decodeLossy (bytes : List UInt8) :
    ∀ c ∈ decodeLossy (bytes.take (identLength bytes)), isIdentChar c = true := by
  fun_induction identLength bytes with
  | case1 => simp [decodeLossy]
  | case2 b rest hc => simp [decodeLossy]
  | case3 b rest c k hc hident ih =>
    have hsplit : (b :: rest).take (identLength (rest.drop (k - 1)) + (k - 1) + 1) =
        b :: (rest.take (k - 1) ++ (rest.drop (k - 1)).take (identLength (rest.drop (k - 1)))) := by
      rw [List.take_succ_cons, Nat.add_comm, List.take_add]
    rw [hsplit, decodeLossy_cons hc]
    exact List.forall_mem_cons.2 ⟨hident, ih⟩
  | case4 b rest c k hc hident => simp [decodeLossy]

section

variable {codes : List Nat} (h : Foreign codes)
include h

theorem Foreign.notMem_identLexeme {b : UInt8} {rest : List UInt8} : ∀ x ∈ (identLexeme b rest).text.toList,
    x.toNat ∉ codes := by
  intro x hx hcode
  unfold identLexeme at hx
  split at hx
  · simp [Lexeme.bad] at hx
  · rename_i c k hc
    split at hx
    · rename_i hstart
      obtain ⟨y, hy, hcode⟩ := h.exists_mem_of_compose hx hcode
      rw [ofBytesLossy, String.toList_ofList, List.take_add, decodeLossy_cons hc] at hy
      have hident : isIdentChar c = true := by simp [isIdentChar, hstart]
      rcases List.mem_cons.1 hy with rfl | hy
      · exact h.outside _ hident hcode
      · exact h.outside _ (isIdentChar_of_mem_decodeLossy _ y hy) hcode
    · simp [Lexeme.bad] at hx

omit h in
theorem kind_numberLexeme (bytes : List UInt8) (n : Nat) : (numberLexeme bytes n).kind ≠ .ident := by
  unfold numberLexeme
  split
  · split <;> exact nofun
  · exact nofun

omit h in
theorem kind_scanNumber (bytes : List UInt8) : (scanNumber bytes).kind ≠ .ident := by
  unfold scanNumber
  dsimp only
  repeat' split
  all_goals first | exact kind_numberLexeme _ _ | simp [Lexeme.bad]

omit h in
theorem kind_symbolLexeme (bytes : List UInt8) : (symbolLexeme bytes).kind ≠ .ident := by
  unfold symbolLexeme
  split
  · rename_i k hk
    rintro rfl
    exact absurd (List.mem_of_find?_eq_some hk) (by decide)
  · exact nofun

theorem Foreign.notMem_lexeme {b : UInt8} {rest : List UInt8} (hkind : (lexeme b rest).kind = .ident) :
    ∀ x ∈ (lexeme b rest).text.toList, x.toNat ∉ codes := by
  unfold lexeme at hkind ⊢
  dsimp only at hkind ⊢
  split at hkind
  · rename_i hident
    rw [if_pos hident]
    exact h.notMem_identLexeme
  split at hkind
  · exact absurd hkind (kind_scanNumber _)
  split at hkind
  · exact nomatch hkind
  · exact absurd hkind (kind_symbolLexeme _)

theorem Foreign.notMem_scan {file off : Nat} {bytes : List UInt8}
    (hkind : (scan file off bytes).token.kind = .ident) :
    ∀ x ∈ (scan file off bytes).token.text.toList, x.toNat ∉ codes := by
  unfold scan at hkind ⊢
  dsimp only at hkind ⊢
  split
  · simp
  · rename_i hdrop
    rw [hdrop] at hkind
    exact h.notMem_lexeme hkind

/-- The text of an identifier is free of foreign characters. -/
theorem Foreign.notMem_scanAll (file off : Nat) (bytes : List UInt8) :
    ∀ tok ∈ (scanAll file off bytes).1, tok.kind = .ident → ∀ x ∈ tok.text.toList, x.toNat ∉ codes := by
  fun_induction scanAll file off bytes with
  | case1 off bytes hdrop s =>
    intro tok htok hkind
    obtain rfl := List.mem_singleton.1 htok
    exact h.notMem_scan hkind
  | case2 off bytes b rest hdrop s tokens diagnostics hrest ih =>
    intro tok htok hkind
    rcases List.mem_cons.1 htok with rfl | htok
    · exact h.notMem_scan hkind
    · exact ih tok (hrest ▸ htok) hkind

end

end TypedScript.Token
