import TypedScript.Proofs.Ast.Grammar

/-!
# The error limit of the parser

A run with a limit goes as the run without one until the limit is reached. What is reported then and later is left
out, and the error that reaches the limit is itself left out: a limit of `n` errors keeps the first `n - 1`.

* `diagnostics_parse`: the reports under a limit are the first ones without it.
* `parse_eq_parse`: with fewer errors than the limit allows nothing depends on it.
-/

namespace TypedScript.Ast

namespace Parser

open TypedScript.Source

variable {α β : Type} {writes : Prop} {p : Parser α} {i : Input} {s s' s'' : State} {file : File} {limit : Nat}

/-! ### Reports within a run -/

theorem Input.enough_eq_true {errors : Nat} : i.enough errors = true ↔ i.maxErrors ≠ 0 ∧ i.maxErrors ≤ errors := by
  simp [Input.enough]

theorem Input.enough_of_lt {errors : Nat} (h : errors < limit) : Input.enough ⟨file, limit⟩ errors = false :=
  Bool.eq_false_iff.2 fun henough => Nat.not_le.2 h (Input.enough_eq_true.1 henough).2

/-- Without a limit it is never enough. -/
theorem Input.enough_zero (errors : Nat) : Input.enough ⟨file, 0⟩ errors = false := rfl

/-- How many of the errors counted so far are reported. -/
def Input.reported (i : Input) (errors : Nat) : Nat := if i.maxErrors = 0 then errors else min errors
    (i.maxErrors - 1)

/-- What becomes of the reports on the way from one state to another. -/
structure Logged (i : Input) (s s' : State) : Prop where
  errors_le : s.errors ≤ s'.errors
  initial : s.diagnostics <+: s'.diagnostics
  counted : s.diagnostics.length = i.reported s.errors → s'.diagnostics.length = i.reported s'.errors
  severe : (∀ d ∈ s.diagnostics, d.isError = true) → ∀ d ∈ s'.diagnostics, d.isError = true

namespace Logged

theorem refl : Logged i s s := ⟨Nat.le_refl _, List.prefix_refl _, id, id⟩

theorem trans (h : Logged i s s') (h' : Logged i s' s'') : Logged i s s'' where
  errors_le := Nat.le_trans h.errors_le h'.errors_le
  initial := h.initial.trans h'.initial
  counted := h'.counted ∘ h.counted
  severe := h'.severe ∘ h.severe

theorem advance : Logged i s s.advance := by
  unfold State.advance
  split
  · exact refl
  · exact ⟨Nat.le_refl _, List.prefix_refl _, id, id⟩

/-- The error that reaches the limit is counted and not reported. -/
theorem reportAt (span : Span) (problem : Problem) : Logged i s (Parser.reportAt span problem i s).2 := by
  unfold Parser.reportAt
  dsimp only
  cases henough : i.enough (s.errors + 1) with
  | true =>
    refine ⟨Nat.le_succ _, List.prefix_refl _, fun h => ?_, id⟩
    obtain ⟨hlimited, hle⟩ := Input.enough_eq_true.1 henough
    simp only [Input.reported, if_neg hlimited, reduceIte] at h ⊢
    omega
  | false =>
    refine ⟨Nat.le_succ _, List.prefix_append _ _, fun h => ?_, fun h d hd => ?_⟩
    · have hbelow : i.maxErrors = 0 ∨ s.errors + 1 < i.maxErrors := by
        have hnot := mt Input.enough_eq_true.2 (Bool.eq_false_iff.1 henough)
        omega
      simp only [Input.reported, Bool.false_eq_true, reduceIte, List.length_append, List.length_singleton] at h ⊢
      split at h <;> split <;> omega
    · rcases List.mem_append.1 hd with hd | hd
      · exact h d hd
      · obtain rfl := List.mem_singleton.1 hd
        rfl

end Logged

theorem Assembled.logged (h : Assembled writes p) (i : Input) (s : State) : Logged i s (p i s).2 := by
  induction h generalizing s with
  | pure | fail | look | enough => exact .refl
  | attempt _ ih => exact ih s
  | write => exact ⟨Nat.le_refl _, List.prefix_refl _, id, id⟩
  | advance => exact .advance
  | eat k =>
    unfold Parser.eat
    split
    · exact .advance
    · exact .refl
  | reportAt span problem => exact .reportAt span problem
  | @bind α β p f _ _ ih ih' =>
    have hp := ih s
    rw [bind_apply]
    rcases hrun : p i s with ⟨_ | a, s'⟩ <;> rw [hrun] at hp
    · exact hp
    · exact hp.trans (ih' a s')

/-! ### Two runs -/

/-- The outcomes of two runs, the first under a limit and the second without: they are the same, or in both there
were as many errors as the limit allows. -/
inductive Alike (limit : Nat) : Option α × State → Option α × State → Prop
  | same {r : Option α × State} : r.2.errors < limit → Alike limit r r
  | stopped {a b : Option α × State} : limit ≤ a.2.errors → limit ≤ b.2.errors →
      a.2.diagnostics = b.2.diagnostics.take (limit - 1) → Alike limit a b

/-- What is reported after the limit has been reached is of no matter. -/
theorem Alike.later {a b : Option α × State} {a' b' : Option β × State} (hpos : 0 < limit) (ha : limit ≤ a.2.errors)
    (hb : limit ≤ b.2.errors) (heq : a.2.diagnostics = b.2.diagnostics.take (limit - 1))
    (hlength : b.2.diagnostics.length = b.2.errors) (hlogged : Logged ⟨file, limit⟩ a.2 a'.2)
    (hlogged' : Logged ⟨file, 0⟩ b.2 b'.2) : Alike limit a' b' := by
  have hle := hlogged.errors_le
  refine .stopped (Nat.le_trans ha hle) (Nat.le_trans hb hlogged'.errors_le) ?_
  have hreported {errors : Nat} (h : limit ≤ errors) : Input.reported ⟨file, limit⟩ errors = limit - 1 := by
    simp only [Input.reported, if_neg (Nat.ne_of_gt hpos)]
    omega
  have hfull : a.2.diagnostics.length = limit - 1 := by
    rw [heq, List.length_take]
    omega
  have hsame : a.2.diagnostics = a'.2.diagnostics := by
    refine hlogged.initial.eq_of_length ?_
    rw [hlogged.counted (hfull.trans (hreported ha).symm), hreported (Nat.le_trans ha hle), hfull]
  obtain ⟨more, hmore⟩ := hlogged'.initial
  rw [← hsame, heq, ← hmore, List.take_append_of_le_length (by omega)]

theorem errors_advance (s : State) : s.advance.errors = s.errors := by
  unfold State.advance
  split <;> rfl

/-- Up to the limit a parser goes as without one. -/
theorem Assembled.alike (h : Assembled writes p) (hlt : s.errors < limit)
    (hlength : s.diagnostics.length = s.errors) :
    Alike limit (p ⟨file, limit⟩ s) (p ⟨file, 0⟩ s) := by
  induction h generalizing s with
  | pure | fail | look | write => exact .same hlt
  | advance => exact .same (Nat.lt_of_le_of_lt (Nat.le_of_eq (errors_advance s)) hlt)
  | eat k =>
    unfold Parser.eat
    split
    · exact .same (Nat.lt_of_le_of_lt (Nat.le_of_eq (errors_advance s)) hlt)
    · exact .same hlt
  | enough =>
    unfold Parser.enough
    rw [Input.enough_of_lt hlt, Input.enough_zero]
    exact .same hlt
  | @attempt α p _ ih =>
    have hp := ih hlt hlength
    unfold Parser.attempt
    generalize p ⟨file, limit⟩ s = a at hp
    generalize p ⟨file, 0⟩ s = b at hp
    cases hp with
    | same hlt => exact .same hlt
    | stopped ha hb heq => exact .stopped ha hb heq
  | reportAt span problem =>
    unfold Parser.reportAt
    dsimp only
    rw [Input.enough_zero]
    by_cases hlast : s.errors + 1 < limit
    · rw [Input.enough_of_lt hlast]
      exact .same hlast
    · rw [Input.enough_eq_true.2 ⟨by dsimp only; omega, by dsimp only; omega⟩]
      refine .stopped (by dsimp only; omega) (by dsimp only; omega) ?_
      simp only [reduceIte, Bool.false_eq_true]
      rw [List.take_append_of_le_length (by omega), List.take_of_length_le (by omega)]
  | @bind α β p f hp hf ih ih' =>
    have hpos : 0 < limit := Nat.lt_of_le_of_lt (Nat.zero_le _) hlt
    have hfirst := ih hlt hlength
    have hlogged := hp.logged ⟨file, 0⟩ s
    -- what follows the first parser can only add reports
    have hthen (i : Input) : Logged i (p i s).2 ((p >>= f) i s).2 := by
      rw [bind_apply]
      rcases p i s with ⟨_ | a, s'⟩
      · exact .refl
      · exact (hf a).logged i s'
    generalize hrun : p ⟨file, limit⟩ s = a at hfirst
    generalize hrun' : p ⟨file, 0⟩ s = b at hfirst hlogged
    have hcount : b.2.diagnostics.length = b.2.errors := hlogged.counted hlength
    cases hfirst with
    | stopped ha hb heq => exact .later hpos ha hb heq hcount (hrun ▸ hthen _) (hrun' ▸ hthen _)
    | same hlt' =>
      rw [bind_apply, bind_apply, hrun, hrun']
      obtain ⟨_ | x, s'⟩ := a
      · exact .same hlt'
      · exact ih' x hlt' hcount

end Parser

/-! ### Files -/

/-- The errors of the parser in a file, when there is no limit. -/
def syntaxErrors (file : Source.File) : List Diagnostic :=
  (Parser.module ⟨file, 0⟩ { rest := (Token.ofFile file).1 }).2.diagnostics

theorem diagnostics_parse_zero (file : Source.File) :
    (parse file 0).diagnostics = (Token.ofFile file).2 ++ syntaxErrors file := rfl

theorem isError_of_mem_syntaxErrors {file : Source.File} {d : Diagnostic} (hd : d ∈ syntaxErrors file) :
    d.isError = true :=
  (Parser.assembled_module.logged _ _).severe (fun _ h => absurd h List.not_mem_nil) d hd

section

variable (file : Source.File) {limit : Nat}

theorem alike_module (hpos : 0 < limit) :
    Parser.Alike limit (Parser.module ⟨file, limit⟩ { rest := (Token.ofFile file).1 })
      (Parser.module ⟨file, 0⟩ { rest := (Token.ofFile file).1 }) :=
  Parser.assembled_module.alike hpos rfl

/-- As many errors are counted as are reported without a limit. -/
theorem length_syntaxErrors :
    (syntaxErrors file).length = (Parser.module ⟨file, 0⟩ { rest := (Token.ofFile file).1 }).2.errors :=
  (Parser.assembled_module.logged ⟨file, 0⟩ _).counted rfl

/-- A limit keeps what the lexer reports and all errors of the parser before the one that reaches it. -/
theorem diagnostics_parse (hpos : 0 < limit) :
    (parse file limit).diagnostics = (Token.ofFile file).2 ++ (syntaxErrors file).take (limit - 1) := by
  have hlength := length_syntaxErrors file
  have halike := alike_module file hpos
  change (Token.ofFile file).2 ++ (Parser.module ⟨file, limit⟩ { rest := (Token.ofFile file).1 }).2.diagnostics = _
  congr 1
  unfold syntaxErrors at hlength ⊢
  generalize Parser.module ⟨file, limit⟩ _ = a at halike
  generalize Parser.module ⟨file, 0⟩ _ = b at halike hlength ⊢
  cases halike with
  | same hlt => rw [List.take_of_length_le (by omega)]
  | stopped _ _ heq => exact heq

/-- If there are fewer errors than the limit allows, it makes no difference. -/
theorem parse_eq_parse (hlt : (syntaxErrors file).length < limit) : parse file limit = parse file 0 := by
  have halike := alike_module file (Nat.lt_of_le_of_lt (Nat.zero_le _) hlt)
  rw [length_syntaxErrors file] at hlt
  have hsame : Parser.module ⟨file, limit⟩ { rest := (Token.ofFile file).1 } =
      Parser.module ⟨file, 0⟩ { rest := (Token.ofFile file).1 } := by
    generalize Parser.module ⟨file, limit⟩ _ = a at halike
    generalize Parser.module ⟨file, 0⟩ _ = b at halike hlt
    cases halike with
    | same _ => rfl
    | stopped _ hb _ => exact absurd hlt (Nat.not_lt.2 hb)
  unfold parse
  dsimp only
  rw [hsame]

end

end TypedScript.Ast
