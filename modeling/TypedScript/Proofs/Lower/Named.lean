import TypedScript.Proofs.Lower.Program
import TypedScript.Proofs.Text.Encoded

/-!
# The symbols of functions

The symbol of a function that the program defines ends in a dot and the number of the function, so no two
functions share one, and no declared function has one of them. That is why no symbol is ever defined twice.
-/

namespace TypedScript.Lower

open TypedScript.Ast TypedScript.Ir TypedScript.Layout

/-! ### Numbered names -/

theorem eq_of_dotted {a b x y : List Char} (h : a ++ '.' :: x = b ++ '.' :: y) (hx : '.' ∉ x)
    (hy : '.' ∉ y) : x = y := by
  rcases List.append_eq_append_iff.1 h with ⟨c, -, hc⟩ | ⟨c, -, hc⟩
  · cases c with
    | nil => exact (List.cons.inj hc).2
    | cons d c =>
      obtain ⟨-, rfl⟩ := List.cons.inj hc
      simp at hx
  · cases c with
    | nil => exact (List.cons.inj hc).2.symm
    | cons d c =>
      obtain ⟨-, rfl⟩ := List.cons.inj hc
      simp at hy

theorem toList_numbered (name : String) (n : Nat) : (s!"{name}.{n}").toList = name.toList ++
    '.' :: Nat.toDigits 10 n := by
  simp [toString]

/-- A numbered name tells the number. -/
theorem numbered_inj {name other : String} {n k : Nat} (h : s!"{name}.{n}" = s!"{other}.{k}") : n = k := by
  have hlist := congrArg String.toList h
  rw [toList_numbered, toList_numbered] at hlist
  exact Text.toDigits_inj (eq_of_dotted hlist (Text.notMem_toDigits rfl n) (Text.notMem_toDigits rfl k))

theorem codeName_eq_numbered {t : Tree} {fn : Nat} (h : t.isFunction fn = true) :
    ∃ name : String, codeName t fn = s!"{name}.{fn}" := by
  unfold codeName
  split
  · rename_i hf
    simp [Tree.isFunction, hf, Form.isFunction] at h
  · exact ⟨_, rfl⟩
  · split
    · split
      · exact ⟨_, rfl⟩
      · exact ⟨"arrow", rfl⟩
    · exact ⟨"arrow", rfl⟩

theorem codeName_inj {t : Tree} {fn fn' : Nat} (h : t.isFunction fn = true) (h' : t.isFunction fn' = true)
    (heq : codeName t fn = codeName t fn') : fn = fn' := by
  obtain ⟨name, hname⟩ := codeName_eq_numbered h
  obtain ⟨name', hname'⟩ := codeName_eq_numbered h'
  exact numbered_inj (hname.symm.trans (heq.trans hname'))

theorem dot_mem_codeName {t : Tree} {fn : Nat} (h : t.isFunction fn = true) : '.' ∈ (codeName t fn).toList := by
  obtain ⟨name, hname⟩ := codeName_eq_numbered h
  rw [hname, toList_numbered]
  simp

/-! ### Symbols -/

/-- What is asked of what is lowered: the names of the runtime are different, also from the symbols of functions,
names of declared functions have no dot, and a function type has as many parameters as the function. -/
structure Input.Regular (inp : Input) : Prop where
  nodup : (reservedNames inp.options).Nodup
  apart : ∀ fn, inp.tree.isFunction fn = true → codeName inp.tree fn ∉ reservedNames inp.options
  foreign : ∀ id name params result, inp.tree.form? id = some (.declareFunc name params result) → '.' ∉ name.toList
  arity : ∀ fn f params result, inp.tree.form? fn = some f → f.isFunction = true →
    inp.types.resolved? (typeOf inp fn) = some (.func params result) → f.params.length ≤ params.length

/-- The definition of the function has begun. -/
def Begun (s : State) (name : String) : Prop := Command.define name ∈ s.commands

/-- The function waits to be defined. -/
structure Waits (inp : Input) (s : State) (p : Pending) : Prop where
  isFunction : inp.tree.isFunction p.node = true
  code : s.codes.lookup p.node = some p.code
  fresh : ¬ Begun s p.code

/-- The symbols that are declared are those of the runtime and of functions, and a function that waits has not
been begun. -/
structure Named (inp : Input) (s : State) : Prop where
  code : ∀ fn name, s.codes.lookup fn = some name → name = codeName inp.tree fn
  declared : ∀ fn name, s.codes.lookup fn = some name → (s.symbols.lookup name).isSome
  kind : ∀ fn name, s.codes.lookup fn = some name → inp.tree.isFunction fn = true ∨ '.' ∉ name.toList
  params : ∀ fn name f, s.codes.lookup fn = some name → inp.tree.form? fn = some f → f.isFunction = true →
    f.params.length < paramCount s.symbols name
  known : ∀ name, (s.symbols.lookup name).isSome → name ∈ reservedNames inp.options ∨ ∃ fn,
    s.codes.lookup fn = some name
  begun : ∀ name, Begun s name → name ∈ reservedNames inp.options ∨ ∃ fn, s.codes.lookup fn = some name
  queue : ∀ p ∈ s.queue, Waits inp s p
  nodup : (s.queue.map (·.node)).Nodup

variable {inp : Input} {s : State}

/-- A name that was not needed before is not the symbol of anything. -/
theorem Named.fresh (h : Named inp s) (hinp : inp.Regular) {fn : Nat} (hfn : inp.tree.isFunction fn = true)
    (hnew : s.codes.lookup fn = none) :
    ¬ (codeName inp.tree fn ∈ reservedNames inp.options ∨ ∃ fn', s.codes.lookup fn' =
      some (codeName inp.tree fn)) := by
  have hdot := dot_mem_codeName hfn
  rintro (hmem | ⟨fn', hfn'⟩)
  · exact hinp.apart fn hfn hmem
  · rcases h.kind fn' _ hfn' with hfun | hundotted
    · obtain rfl := codeName_inj hfn hfun (h.code fn' _ hfn')
      rw [hnew] at hfn'
      exact nomatch hfn'
    · exact hundotted hdot

/-- What is known of symbols does not depend on the rest of the state. -/
theorem Named.congr {s' : State} (h : Named inp s) (hbegun : ∀ name, Begun s' name ↔ Begun s name)
    (hcodes : s'.codes = s.codes) (hsymbols : s'.symbols = s.symbols) (hqueue : s'.queue = s.queue) :
    Named inp s' where
  code fn name hn := h.code fn name (hcodes ▸ hn)
  declared fn name hn := hsymbols ▸ h.declared fn name (hcodes ▸ hn)
  kind fn name hn := h.kind fn name (hcodes ▸ hn)
  params fn name f hn hf hfun := hsymbols ▸ h.params fn name f (hcodes ▸ hn) hf hfun
  known name hn := hcodes ▸ h.known name (hsymbols ▸ hn)
  begun name hn := hcodes ▸ h.begun name ((hbegun name).1 hn)
  queue p hp := by
    obtain ⟨hfun, hcode, hfresh⟩ := h.queue p (hqueue ▸ hp)
    exact ⟨hfun, hcodes ▸ hcode, fun hn => hfresh ((hbegun _).1 hn)⟩
  nodup := hqueue ▸ h.nodup

theorem lookup_cons_code {codes : List (Nat × String)} {fn fn' : Nat} {name name' : String}
    (h : List.lookup fn' ((fn, name) :: codes) = some name') : (fn' = fn ∧ name' = name) ∨
    codes.lookup fn' = some name' := by
  rw [List.lookup_cons] at h
  split at h
  · rename_i heq
    exact .inl ⟨by simpa using heq, (Option.some.inj h).symm⟩
  · exact .inr h

theorem lookup_cons_of_code {codes : List (Nat × String)} {fn fn' : Nat} {name name' : String}
    (hnew : codes.lookup fn = none) (h : codes.lookup fn' = some name') :
    List.lookup fn' ((fn, name) :: codes) = some name' := by
  have hne : (fn' == fn) = false := by
    simp only [beq_eq_false_iff_ne]
    rintro rfl
    rw [hnew] at h
    exact nomatch h
  rw [List.lookup_cons, hne]
  exact h

/-- A function gets its symbol. -/
theorem Named.declare (h : Named inp s) {s' : State} {fn : Nat} {sig : Sig} (hnew : s.codes.lookup fn = none)
    (hkind : inp.tree.isFunction fn = true ∧ (s.symbols.lookup (codeName inp.tree fn)) = none ∨
      '.' ∉ (codeName inp.tree fn).toList ∧ inp.tree.isFunction fn = false)
    (hsig : ∀ f, inp.tree.form? fn = some f → f.isFunction = true → f.params.length < sig.params.length)
    (hbegun : ∀ name, Begun s' name ↔ Begun s name) (hcodes : s'.codes = (fn, codeName inp.tree fn) :: s.codes)
    (hsymbols : s'.symbols = symbolsAfter s.symbols (codeName inp.tree fn) sig) (hqueue : s'.queue = s.queue) :
    Named inp s' := by
  have hlookup {fn' : Nat} {name : String} (hn : s'.codes.lookup fn' = some name) :
      (fn' = fn ∧ name = codeName inp.tree fn) ∨ s.codes.lookup fn' = some name := lookup_cons_code (hcodes ▸ hn)
  have hstay {fn' : Nat} {name : String} (hn : s.codes.lookup fn' = some name) : s'.codes.lookup fn' = some name :=
    hcodes ▸ lookup_cons_of_code hnew hn
  have hself : s'.codes.lookup fn = some (codeName inp.tree fn) := by simp [hcodes]
  constructor
  case code =>
    intro fn' name hn
    rcases hlookup hn with ⟨rfl, rfl⟩ | hold
    · rfl
    · exact h.code fn' name hold
  case declared =>
    intro fn' name hn
    rw [hsymbols]
    rcases hlookup hn with ⟨rfl, rfl⟩ | hold
    · exact lookup_symbolsAfter_self _ _ _
    · rw [lookup_symbolsAfter sig (h.declared fn' name hold)]
      exact h.declared fn' name hold
  case kind =>
    intro fn' name hn
    rcases hlookup hn with ⟨rfl, rfl⟩ | hold
    · exact hkind.imp And.left And.left
    · exact h.kind fn' name hold
  case params =>
    intro fn' name f hn hf hfun
    rw [hsymbols]
    rcases hlookup hn with ⟨rfl, rfl⟩ | hold
    · rcases hkind with ⟨-, hnone⟩ | ⟨-, hother⟩
      · simpa [paramCount, symbolsAfter, hnone] using hsig f hf hfun
      · simp [Tree.isFunction, hf, hfun] at hother
    · unfold paramCount
      rw [lookup_symbolsAfter sig (h.declared fn' name hold)]
      exact h.params fn' name f hold hf hfun
  case known =>
    intro name hn
    obtain ⟨sig', hsig'⟩ := Option.isSome_iff_exists.1 hn
    rw [hsymbols] at hsig'
    rcases lookup_symbolsAfter_eq hsig' with hold | ⟨rfl, -⟩
    · refine (h.known name (by rw [hold]; rfl)).imp_right ?_
      rintro ⟨fn', hfn'⟩
      exact ⟨fn', hstay hfn'⟩
    · exact .inr ⟨fn, hself⟩
  case begun =>
    intro name hn
    refine (h.begun name ((hbegun name).1 hn)).imp_right ?_
    rintro ⟨fn', hfn'⟩
    exact ⟨fn', hstay hfn'⟩
  case queue =>
    intro p hp
    obtain ⟨hfun, hcode, hfresh⟩ := h.queue p (hqueue ▸ hp)
    exact ⟨hfun, hstay hcode, fun hn => hfresh ((hbegun _).1 hn)⟩
  case nodup => exact hqueue ▸ h.nodup

/-- A function is made to wait. -/
theorem Named.enqueue (h : Named inp s) {p : Pending} (hp : Waits inp s p) (hnew : p.node ∉ s.queue.map (·.node)) :
    Named inp { s with queue := s.queue ++ [p] } where
  code := h.code
  declared := h.declared
  kind := h.kind
  params := h.params
  known := h.known
  begun := h.begun
  queue q hq := by
    rcases List.mem_append.1 hq with hq | hq
    · obtain ⟨hfun, hcode, hfresh⟩ := h.queue q hq
      exact ⟨hfun, hcode, hfresh⟩
    · obtain rfl := List.mem_singleton.1 hq
      exact ⟨hp.isFunction, hp.code, hp.fresh⟩
  nodup := by
    rw [List.map_append, List.nodup_append]
    refine ⟨h.nodup, by simp, fun a ha b hb => ?_⟩
    obtain rfl : b = p.node := by simpa using hb
    exact fun hab => hnew (hab ▸ ha)

/-- The definition of a function begins that does not wait any more. -/
theorem Named.define (h : Named inp s) {s' : State} {name : String}
    (hname : name ∈ reservedNames inp.options ∨ ∃ fn, s.codes.lookup fn = some name)
    (hfresh : ∀ p ∈ s.queue, p.code ≠ name) (hcommands : s'.commands = s.commands.push (.define name))
    (hcodes : s'.codes = s.codes) (hsymbols : s'.symbols = s.symbols) (hqueue : s'.queue = s.queue) :
    Named inp s' := by
  have hbegun {n : String} : Begun s' n ↔ Begun s n ∨ n = name := by
    unfold Begun
    rw [hcommands, Array.mem_push]
    exact or_congr_right ⟨Command.define.inj, congrArg _⟩
  constructor
  case code => exact fun fn n hn => h.code fn n (hcodes ▸ hn)
  case declared => exact fun fn n hn => hsymbols ▸ h.declared fn n (hcodes ▸ hn)
  case kind => exact fun fn n hn => h.kind fn n (hcodes ▸ hn)
  case params => exact fun fn n f hn hf hfun => hsymbols ▸ h.params fn n f (hcodes ▸ hn) hf hfun
  case known => exact fun n hn => hcodes ▸ h.known n (hsymbols ▸ hn)
  case begun =>
    intro n hn
    rw [hcodes]
    rcases hbegun.1 hn with hn | rfl
    · exact h.begun n hn
    · exact hname
  case queue =>
    intro p hp
    rw [hqueue] at hp
    obtain ⟨hfun, hcode, hnot⟩ := h.queue p hp
    exact ⟨hfun, hcodes ▸ hcode, fun hn => (hbegun.1 hn).elim hnot (hfresh p hp)⟩
  case nodup => exact hqueue ▸ h.nodup

end TypedScript.Lower
