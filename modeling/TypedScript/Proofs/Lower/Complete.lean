import TypedScript.Proofs.Lower.Faultless
import TypedScript.Proofs.Lower.Furnished
import TypedScript.Proofs.Lower.Resolved

/-!
# Every function is completed

The functions of a program are defined one after another, each with all of its blocks ended before the next one
begins. A function starts with its parameters and a scope of its own; no scope around it belongs to it, because it
is lowered only once, so nothing that another function defined is ever taken for its own. When no function waits
any more, every symbol is that of a function that was defined, or of one that the host provides.

* `Whole`: what holds between functions.
* `whole_lowerFunction`, `whole_lowerQueue`: it is kept by one function, and by all that wait.
* `whole_lowerProgram`: it holds at the end, when all functions have been defined.
-/

namespace TypedScript.Lower

open TypedScript.Ast TypedScript.Ast.Tree TypedScript.Binding TypedScript.Ir TypedScript.Layout TypedScript.Machine
  TypedScript.Scope

variable {inp : Input} {own : Option Nat} {s s' : State} {α : Type}

/-! ### Functions -/

/-- What holds between functions: the one before is complete, and the scopes are those of functions that were
begun. -/
structure Whole (inp : Input) (s : State) : Prop where
  ordered : Ordered inp s
  complete : s.ledger.IsComplete
  owners : ∀ n < s.chain.nodes.size, s.chain.function n = 0 ∨ Begun s (codeName inp.tree (s.chain.function n))

/-- The state in which the body of a function begins, with its scopes and the functions that wait. -/
structure Begins (s s' : State) (name : String) : Prop where
  commands : s'.commands = s.commands.push (.define name)
  symbols : s'.symbols = s.symbols
  registers : s'.registers = paramCount s.symbols name
  blocks : s'.blocks = 1
  block : s'.block = 0
  ended : s'.ended = []
  codes : s'.codes = s.codes

theorem Begins.ledger {name : String} (h : Begins s s' name) : s'.ledger = s.ledger.next (.define name) :=
  State.ledger_of_push h.commands

theorem Begins.begun {name other : String} (h : Begins s s' name) : Begun s' other ↔ Begun s other ∨
    other = name := by
  unfold Begun
  rw [h.commands, Array.mem_push]
  exact or_congr_right ⟨Command.define.inj, congrArg _⟩

/-- The parameters of a function are defined from its start. -/
theorem Begins.has_param {name : String} (h : Begins s s' name) (hs : Ordered inp s) {i : Nat}
    (hi : i < paramCount s.symbols name) : s'.Has (.reg i) := by
  rw [State.has_reg, h.ledger]
  exact List.mem_range.2 (by rwa [hs.symbols])

/-- A function begins when the one before it is complete. -/
theorem Whole.begin {name : String} (hs : Whole inp s) (h : Begins s s' name)
    (hkinds : ∀ n, ∀ b ∈ (s'.chain.get n).bindings, b.kind.isFunction = isNamedFunction inp.tree b.decl)
    (hqueue : ∀ p ∈ s.queue, p ∈ s'.queue ∨ p.code = name) : Ordered inp s' := by
  have hord := hs.ordered
  have hledger := h.ledger
  constructor
  case accounted =>
    rw [h.commands]
    exact hord.accounted.push hs.complete
  case symbols => rw [hledger, h.symbols]; exact hord.symbols
  case registers =>
    rw [hledger, h.registers, ← hord.symbols]
    rfl
  case blocks => rw [hledger, h.blocks]; rfl
  case block => rw [hledger, h.block]; rfl
  case ended => rw [hledger, h.ended]; rfl
  case kinds => exact hkinds
  case enlisted =>
    intro fn code hn
    rcases hord.enlisted fn code (h.codes ▸ hn) with ⟨hfn, hb | ⟨p, hp, rfl⟩⟩ | hforeign
    · exact .inl ⟨hfn, .inl (h.begun.2 (.inl hb))⟩
    · rcases hqueue p hp with hp | heq
      · exact .inl ⟨hfn, .inr ⟨p, hp, rfl⟩⟩
      · exact .inl ⟨hfn, .inl (h.begun.2 (.inr heq))⟩
    · exact .inr hforeign

/-- A function that began in the entry block and has ended the block at hand is complete. -/
theorem Moves.isComplete (h : Moves own [] s s') (hs' : Ordered inp s') (hblocks : s.blocks = 1)
    (hblock : s.block = 0) (hended : s'.block ∈ s'.ended) : s'.ledger.IsComplete := by
  intro b hb
  rw [hs'.blocks] at hb
  rw [hs'.ended]
  have hb' : b = s.block ∨ (s.blocks ≤ b ∧ b < s'.blocks) := by omega
  rcases h.closed b hb' with rfl | hmem | hnil
  · exact hended
  · exact hmem
  · exact nomatch hnil

/-- A function is complete when its block is ended. -/
theorem Moves.whole (h : Moves own [] s s') (hs' : Ordered inp s') (hblocks : s.blocks = 1) (hblock : s.block = 0)
    (howners : ∀ n < s.chain.nodes.size, s.chain.function n = 0 ∨ Begun s (codeName inp.tree (s.chain.function n)))
    (hended : s'.block ∈ s'.ended) : Whole inp s' := by
  refine ⟨hs', h.isComplete hs' hblocks hblock hended, fun n hn => ?_⟩
  have hold {k : Nat} (hk : k < s.chain.nodes.size) (heq : s'.chain.function n = s.chain.function k) :
      s'.chain.function n = 0 ∨ Begun s' (codeName inp.tree (s'.chain.function n)) := by
    rw [heq]
    exact (howners k hk).imp_right (h.begun _)
  by_cases hlt : n < s.chain.nodes.size
  · exact hold hlt (h.links n hlt).2
  · obtain ⟨k, hk, heq⟩ := h.functions n (Nat.le_of_not_lt hlt) hn
    exact hold hk heq

/-- What holds between functions holds again when one has been defined by a body that ends its block. -/
theorem Whole.define {name : String} {act : LowerM α} {a : α} {t : State} (hs : Whole inp s) (h : Begins s t name)
    (hkinds : ∀ n, ∀ b ∈ (t.chain.get n).bindings, b.kind.isFunction = isNamedFunction inp.tree b.decl)
    (hqueue : ∀ p ∈ s.queue, p ∈ t.queue ∨ p.code = name)
    (howners : ∀ n < t.chain.nodes.size, t.chain.function n = 0 ∨ Begun t (codeName inp.tree (t.chain.function n)))
    (hact : (orderlyRegime inp).toRegime.Leads t act fun s' _ => Moves own [] t s' ∧ s'.block ∈ s'.ended)
    (hrun : Runs act t a s') : Whole inp s' ∧ ∀ x, Begun s x ∨ x = name → Begun s' x := by
  obtain ⟨hs', hm, hended⟩ := StateRegime.run hact (hs.begin h hkinds hqueue) hrun
  exact ⟨hm.whole hs' h.blocks h.block howners hended, fun x hx => hm.begun x (h.begun.2 hx)⟩

/-- The scope of a function is furnished when it is opened, because no scope around it belongs to the function. -/
theorem furnished_root {node : Scope.Node} (hchain : s'.chain = ⟨s.chain.nodes.push node⟩) (henv : s'.Has s'.env)
    (hparent : ∀ p, node.parent = some p → p < s.chain.nodes.size) (hobject : node.object = .absent)
    (hbindings : node.bindings = []) (hdeferred : node.deferred = [])
    (hother : ∀ n < s.chain.nodes.size, s.chain.function n ≠ node.function) : Furnished s' s.chain.nodes.size where
  lt := by simp [hchain]
  parent p hp := by
    rw [hchain, Chain.get_push, if_pos rfl] at hp
    exact hparent p hp
  env := henv
  nodes n hn hfn := by
    have hle := le_of_mem_outward _ _ n hn
    rw [hchain, Chain.function, Chain.function, Chain.get_push, Chain.get_push, if_pos rfl] at hfn
    rw [hchain, Chain.get_push]
    by_cases heq : n = s.chain.nodes.size
    · rw [if_pos heq]
      exact ⟨by simp [hobject], by simp [hbindings], by simp [hdeferred]⟩
    · rw [if_neg heq] at hfn
      exact absurd hfn (hother n (by omega))

/-- A function is defined inside a new scope, which no scope around it belongs to. -/
theorem Whole.defineIn {name : String} {act : LowerM α} {a : α} {t : State} {node : Scope.Node} (hs : Whole inp s)
    (h : Begins s t name) (hqueue : ∀ p ∈ s.queue, p ∈ t.queue ∨ p.code = name)
    (hchain : t.chain = ⟨s.chain.nodes.push node⟩) (henv : t.Has t.env)
    (hparent : ∀ p, node.parent = some p → p < s.chain.nodes.size) (hobject : node.object = .absent)
    (hbindings : node.bindings = []) (hdeferred : node.deferred = [])
    (hother : ∀ n < s.chain.nodes.size, s.chain.function n ≠ node.function)
    (howner : node.function = 0 ∨ codeName inp.tree node.function = name)
    (hact : Furnished t s.chain.nodes.size → (orderlyRegime inp).toRegime.Leads t act fun s' _ =>
      Moves (some s.chain.nodes.size) [] t s' ∧ s'.block ∈ s'.ended)
    (hrun : Runs act t a s') :
    Whole inp s' ∧ ∀ x, Begun s x ∨ x = name → Begun s' x := by
  have hroot : Furnished t s.chain.nodes.size :=
    furnished_root hchain henv hparent hobject hbindings hdeferred hother
  refine hs.define h (fun n b hb => ?_) hqueue (fun n hn => ?_) (hact hroot) hrun
  · rw [hchain, Chain.get_push] at hb
    split at hb
    · simp [hbindings] at hb
    · exact hs.ordered.kinds n b hb
  · rw [hchain, Array.size_push] at hn
    rw [hchain, Chain.function, Chain.get_push]
    split
    · exact howner.imp_right fun heq => h.begun.2 (.inr heq)
    · exact (hs.owners n (by omega)).imp_right fun hb => h.begun.2 (.inl hb)

theorem ne_zero_of_isFunction {t : Tree} {id : Nat} (h : t.isFunction id = true) : id ≠ 0 := by
  rintro rfl
  simp [Tree.isFunction, form?, node?] at h

/-- A function that waits is completed. -/
theorem whole_lowerFunction (hlinked : inp.tree.Linked) {p : Pending} {rest : List Pending} (hs : Whole inp s)
    (hqueue : s.queue = p :: rest) (hfun : inp.tree.isFunction p.node = true)
    (hcode : p.code = codeName inp.tree p.node) (hfresh : ¬ Begun s p.code)
    (hcount : 0 < paramCount s.symbols p.code) (hscope : p.scope < s.chain.nodes.size)
    (hrun : Runs (lowerFunction inp p) { s with queue := rest } () s') :
    Whole inp s' ∧ ∀ x, Begun s x ∨ x = p.code → Begun s' x := by
  obtain ⟨f, hf, hffun⟩ := exists_form_of_isFunction hfun
  obtain ⟨body, hbody⟩ := Form.exists_body?_of_isFunction hffun
  obtain ⟨_, s₁, hrecords, hrun₁⟩ := runs_bind.1 hrun
  obtain rfl := runs_modify.1 hrecords
  obtain ⟨out, s₂, hsig, hrun₂⟩ := runs_bind.1 hrun₁
  obtain ⟨r, rfl, -⟩ := (surveys_signature inp _ _).run hsig
  obtain ⟨count, s₃, hdefine, hrun₃⟩ := runs_bind.1 hrun₂
  obtain ⟨rfl, rfl⟩ := runs_defineFunc hdefine
  obtain ⟨_, s₄, henv, hrun₄⟩ := runs_bind.1 hrun₃
  obtain rfl := runs_modify.1 henv
  obtain ⟨_, s₅, hnote, hrun₅⟩ := runs_bind.1 hrun₄
  obtain rfl := runs_modify.1 hnote
  obtain ⟨root, t, hopen, hrun₆⟩ := runs_bind.1 hrun₅
  obtain ⟨rfl, ht⟩ := runs_modifyGet.1 hopen
  have hbegins : Begins s t p.code := by
    subst ht
    exact ⟨rfl, rfl, rfl, rfl, rfl, rfl, rfl⟩
  have hparam (i : Nat) (hi : i < paramCount s.symbols p.code) : t.Has (.reg i) := hbegins.has_param hs.ordered hi
  have henv : t.env = .reg 0 := by rw [ht]
  refine hs.defineIn hbegins (fun q hq => ?_) (by rw [ht]; rfl) (henv ▸ hparam 0 hcount)
    (fun q hq => ?_) rfl rfl rfl
    (fun n hn heq => ?_) (.inr hcode.symm) ?_ hrun₆
  · rw [hqueue] at hq
    rw [ht]
    exact (List.mem_cons.1 hq).symm.imp_right (congrArg Pending.code)
  · exact Option.some.inj hq ▸ hscope
  · -- a scope of the function would mean that the function had been begun before
    rcases hs.owners n hn with hzero | hbegun
    · exact ne_zero_of_isFunction hfun (heq.symm.trans hzero)
    · rw [heq, ← hcode] at hbegun
      exact hfresh hbegun
  · intro hroot
    simp only [hf, hbody, Option.getD_some]
    exact leads_function (V := orderlyView hlinked) hf hbody hroot trivial hparam (.inr trivial) out.2.1 trivial

/-- Declaring a function leaves the one before it complete. -/
theorem Whole.declareFunc {name : String} {sig : Sig} (hs : Whole inp s)
    (hrun : Runs (declareFunc name sig) s () s') :
    Whole inp s' ∧ s'.chain = s.chain ∧ ∀ x, Begun s x → Begun s' x := by
  have hdeclares : Orderly inp none s (Lower.declareFunc name sig) fun _ _ => True := orderly_declareFunc name sig
  obtain ⟨hord, hm, -⟩ := hdeclares.run hs.ordered hrun
  obtain rfl := runs_declareFunc hrun
  refine ⟨⟨hord, ?_, fun n hn => (hs.owners n hn).imp_right (hm.begun _)⟩, rfl, hm.begun⟩
  rw [State.ledger_of_push rfl]
  exact hs.complete

/-- The body of the module is lowered into a function that is declared and defined at once, while no scope is
there. -/
theorem whole_lowerEntry (hlinked : inp.tree.Linked) (hs : Whole inp s) (hchain : s.chain.nodes.size = 0)
    (hrun : Runs (lowerEntry inp) s () s') :
    Whole inp s' ∧ ∀ x, Begun s x ∨ x = inp.options.entry → Begun s' x := by
  obtain ⟨_, s₁, hdeclare, hrun₁⟩ := runs_bind.1 hrun
  obtain ⟨hs₁, hsame, hbegun⟩ := hs.declareFunc hdeclare
  rw [← hsame] at hchain
  clear hdeclare
  obtain ⟨count, s₂, hdefine, hrun₂⟩ := runs_bind.1 hrun₁
  obtain ⟨rfl, rfl⟩ := runs_defineFunc hdefine
  obtain ⟨_, s₃, hnote, hrun₃⟩ := runs_bind.1 hrun₂
  obtain rfl := runs_modify.1 hnote
  obtain ⟨root, t, hopen, hrun₄⟩ := runs_bind.1 hrun₃
  obtain ⟨rfl, ht⟩ := runs_modifyGet.1 hopen
  have hbegins : Begins s₁ t inp.options.entry := by
    subst ht
    exact ⟨rfl, rfl, rfl, rfl, rfl, rfl, rfl⟩
  have henv : t.env = .null := by rw [ht]
  have hqueue : t.queue = s₁.queue := by rw [ht]
  have hchain' : t.chain = ⟨s₁.chain.nodes.push { container := inp.tree.root }⟩ := by rw [ht]; rfl
  refine (hs₁.defineIn hbegins (fun q hq => .inl (hqueue ▸ hq)) hchain' (henv ▸ State.has_null) nofun rfl rfl rfl
    (fun n hn => absurd hn (by omega)) (.inl rfl) ?_ hrun₄).imp id fun h x hx => h x (hx.imp_left (hbegun x))
  exact fun hroot => leads_entry (V := orderlyView hlinked) hroot trivial (fun _ _ _ _ => trivial) trivial

/-! ### Waiting functions -/

/-- Everything that is known between functions, of which apart from the symbols of functions at most `names` were
begun. -/
structure Midway (inp : Input) (names : List String) (s : State) : Prop where
  between : Between inp names s
  scopes : Scoped inp none s
  whole : Whole inp s

theorem lt_size_of_isFunction {t : Tree} {id : Nat} (h : t.isFunction id = true) : id < t.size + 1 := by
  cases hf : t.form? id with
  | none => simp [Tree.isFunction, hf] at h
  | some f => exact Nat.lt_succ_of_le (le_size_of_form? hf)

/-- Functions that were begun are nodes of the tree, so there is a limit to their number. -/
theorem length_le_size {t : Tree} {done : List Nat} (hnodup : done.Nodup)
    (hall : ∀ n ∈ done, t.isFunction n = true) :
    done.length ≤ t.size := by
  have hsub : 0 :: done ⊆ List.range (t.size + 1) := by
    intro n hn
    rcases List.mem_cons.1 hn with rfl | hn
    · exact List.mem_range.2 (Nat.succ_pos _)
    · exact List.mem_range.2 (lt_size_of_isFunction (hall n hn))
  have hzero : 0 ∉ done := fun h => ne_zero_of_isFunction (hall 0 h) rfl
  have hle := (List.Nodup.subperm (List.nodup_cons.2 ⟨hzero, hnodup⟩) hsub).length_le
  simpa using hle

variable {names : List String}

/-- One function is taken from those that wait. -/
theorem Midway.lowerFunction (hinp : inp.Regular) (hready : inp.Ready) (h : Midway inp names s) {p : Pending}
    {rest : List Pending} (hqueue : s.queue = p :: rest)
    (hrun : Runs (lowerFunction inp p) { s with queue := rest } () s') :
    Midway inp names s' ∧ ∀ x, Begun s x ∨ x = p.code → Begun s' x := by
  have hmem : p ∈ s.queue := by rw [hqueue]; exact List.mem_cons_self
  have hwaits := h.between.named.queue p hmem
  have hawaited := h.scopes.queue p hmem
  have hcode := h.between.named.code p.node p.code hwaits.code
  have hcount := hwaits.params_lt h.between.named
  have hscope := (hawaited.stands.resolve_right nofun).lt_size
  have hbetween := ((settles_lowerFunction hinp (h.between.pop hqueue)
    ⟨hwaits.isFunction, hwaits.code, hwaits.fresh⟩
    (h.between.named.code_ne hqueue)).1 () s' hrun).1
  have hscoped := ((fine_lowerFunction hready (s := { s with queue := rest }) hawaited).run
    ⟨h.scopes.parents, h.scopes.housed, fun q hq => h.scopes.queue q (hqueue ▸ List.mem_cons_of_mem p hq)⟩ hrun).1
  obtain ⟨hwhole, hbegun⟩ :=
    whole_lowerFunction hready.linked h.whole hqueue hwaits.isFunction hcode hwaits.fresh (by omega) hscope hrun
  exact ⟨⟨hbetween, hscoped, hwhole⟩, hbegun⟩

/-- Every function that waits is completed. The induction is on the rounds that are left; with every round one
more of the functions of the tree has been begun, so the rounds do not run out before the queue does. -/
theorem Midway.lowerQueue (hinp : inp.Regular) (hready : inp.Ready) (fuel : Nat) {done : List Nat}
    (h : Midway inp names s) (hnodup : done.Nodup)
    (hdone : ∀ n ∈ done, inp.tree.isFunction n = true ∧ Begun s (codeName inp.tree n))
    (hfuel : inp.tree.size < done.length + fuel) (hrun : Runs (lowerQueue inp fuel) s () s') :
    Midway inp names s' ∧ s'.queue = [] ∧ ∀ x, Begun s x → Begun s' x := by
  induction fuel generalizing s done with
  | zero =>
    have := length_le_size hnodup fun n hn => (hdone n hn).1
    omega
  | succ fuel ih =>
    obtain ⟨_, t, hget, hrun₁⟩ := runs_bind.1 hrun
    obtain ⟨rfl, rfl⟩ := runs_get.1 hget
    split at hrun₁
    · rename_i hqueue
      obtain ⟨-, rfl⟩ := runs_pure.1 hrun₁
      exact ⟨h, hqueue, fun _ hx => hx⟩
    · rename_i p rest hqueue
      obtain ⟨_, s₁, hmod, hrun₂⟩ := runs_bind.1 hrun₁
      obtain rfl := runs_modify.1 hmod
      obtain ⟨_, s₂, hfunction, hrun₃⟩ := runs_bind.1 hrun₂
      have hwaits := h.between.named.queue p (by rw [hqueue]; exact List.mem_cons_self)
      have hcode := h.between.named.code p.node p.code hwaits.code
      obtain ⟨h₂, hbegun₂⟩ := h.lowerFunction hinp hready hqueue hfunction
      have hnew : p.node ∉ done := fun hmem => hwaits.fresh (hcode ▸ (hdone p.node hmem).2)
      have hdone₂ : ∀ n ∈ p.node :: done, inp.tree.isFunction n = true ∧ Begun s₂ (codeName inp.tree n) := by
        intro n hn
        rcases List.mem_cons.1 hn with rfl | hn
        · exact ⟨hwaits.isFunction, hbegun₂ _ (.inr hcode.symm)⟩
        · exact ⟨(hdone n hn).1, hbegun₂ _ (.inl (hdone n hn).2)⟩
      obtain ⟨h', hempty, hbegun'⟩ :=
        ih h₂ (List.nodup_cons.2 ⟨hnew, hnodup⟩) hdone₂ (by simp only [List.length_cons]; omega) hrun₃
      exact ⟨h', hempty, fun x hx => hbegun' x (hbegun₂ x (.inl hx))⟩

/-! ### Helpers -/

/-- A helper is completed by a body that ends its block and reads nothing but the parameter. -/
theorem Whole.defineHelper {name : String} {body : LowerM Unit} (hs : Whole inp s)
    (hcount : paramCount s.symbols name = 2)
    (hbody : ∀ t, t.Has helperParam → (orderlyRegime inp).toRegime.Leads t body fun s' _ =>
      Moves none [] t s' ∧ s'.block ∈ s'.ended)
    (hrun : Runs (defineFunc name >>= fun _ => body) s () s') : Whole inp s' ∧ ∀ x, Begun s x ∨ x = name →
    Begun s' x := by
  obtain ⟨count, t, hdefine, hrun₁⟩ := runs_bind.1 hrun
  obtain ⟨rfl, ht⟩ := runs_defineFunc hdefine
  have hbegins : Begins s t name := by
    subst ht
    exact ⟨rfl, rfl, rfl, rfl, rfl, rfl, rfl⟩
  have hchain : t.chain = s.chain := by rw [ht]
  have hqueue : t.queue = s.queue := by rw [ht]
  refine hs.define hbegins (by rw [hchain]; exact hs.ordered.kinds) (fun p hp => .inl (hqueue ▸ hp))
    (fun n hn => ?_)
    (hbody t (hbegins.has_param hs.ordered (by omega))) hrun₁
  rw [hchain] at hn ⊢
  exact (hs.owners n hn).imp_right fun hb => hbegins.begun.2 (.inl hb)

section

variable (hlinked : inp.tree.Linked) (hs : Whole inp s)
include hlinked hs

theorem whole_defineRetain (hcount : paramCount s.symbols retainName = 2) (hrun : Runs defineRetain s () s') :
    Whole inp s' ∧ ∀ x, Begun s x ∨ x = retainName → Begun s' x :=
  hs.defineHelper hcount (fun _ hparam =>
    leads_retainBody (V := orderlyView hlinked) hparam trivial trivial trivial) hrun

theorem whole_defineFnHelper {name inner : String} (hinner : inner ∈ helperNames)
    (hcount : paramCount s.symbols name = 2) (hrun : Runs (defineFnHelper name inner) s () s') :
    Whole inp s' ∧ ∀ x, Begun s x ∨ x = name → Begun s' x :=
  hs.defineHelper hcount (fun _ hparam =>
    leads_fnHelperBody (V := orderlyView hlinked) hparam trivial hinner trivial) hrun

theorem whole_defineRelease (hcount : paramCount s.symbols releaseName = 2)
    (hrun : Runs (defineRelease inp) s () s') : Whole inp s' ∧ ∀ x, Begun s x ∨ x = releaseName → Begun s' x :=
  hs.defineHelper hcount (fun _ hparam => leads_releaseBody (V := orderlyView hlinked) (fun _ => trivial) hparam
    trivial trivial (State.has_func _) trivial) hrun

end

/-- The helpers are completed one after another. -/
theorem Midway.defineRuntime (hinp : inp.Regular) (hlinked : inp.tree.Linked) (h : Midway inp [inp.options.entry] s)
    (hhelped : Helped s) (hrun : Runs (defineRuntime inp) s () s') :
    Whole inp s' ∧ ∀ x, Begun s x ∨ x ∈ helperNames → Begun s' x := by
  have hcount {s : State} {name : String} (hsig : s.symbols.lookup name = some helperSig) :
    paramCount s.symbols name = 2 := by
    rw [paramCount, hsig]
    rfl
  obtain ⟨_, s₁, hretain, hrun₁⟩ := runs_bind.1 hrun
  obtain ⟨hw₁, hb₁⟩ := whole_defineRetain hlinked h.whole (hcount (hhelped _ (by decide))) hretain
  obtain ⟨hs₁, hsymbols₁⟩ := (settles_defineRetain h.between hinp (hhelped _ (by decide))
    (hinp.helper_notMem [] (by decide) (by decide))).1 _ _ hretain
  have hhelped₁ : Helped s₁ := fun name hname => hsymbols₁ _ _ (hhelped name hname)
  obtain ⟨_, s₂, hfnRetain, hrun₂⟩ := runs_bind.1 hrun₁
  obtain ⟨hw₂, hb₂⟩ := whole_defineFnHelper hlinked hw₁ (by decide) (hcount (hhelped₁ fnRetainName (by decide)))
    hfnRetain
  obtain ⟨hs₂, hsymbols₂⟩ := (settles_defineFnHelper hs₁ hinp (by decide) (by decide) (hhelped₁ _ (by decide))
    (hinp.helper_notMem [retainName] (by decide) (by decide))).1 _ _ hfnRetain
  have hhelped₂ : Helped s₂ := fun name hname => hsymbols₂ _ _ (hhelped₁ name hname)
  obtain ⟨_, s₃, hfnRelease, hrun₃⟩ := runs_bind.1 hrun₂
  obtain ⟨hw₃, hb₃⟩ := whole_defineFnHelper hlinked hw₂ (by decide) (hcount (hhelped₂ fnReleaseName (by decide)))
    hfnRelease
  obtain ⟨hs₃, hsymbols₃⟩ := (settles_defineFnHelper hs₂ hinp (by decide) (by decide) (hhelped₂ _ (by decide))
    (hinp.helper_notMem [fnRetainName, retainName] (by decide) (by decide))).1 _ _ hfnRelease
  obtain ⟨hw₄, hb₄⟩ := whole_defineRelease hlinked hw₃ (hcount (hsymbols₃ _ _ (hhelped₂ _ (by decide)))) hrun₃
  refine ⟨hw₄, fun x hx => ?_⟩
  rcases hx with hx | hx
  · exact hb₄ x (.inl (hb₃ x (.inl (hb₂ x (.inl (hb₁ x (.inl hx)))))))
  · simp only [helperNames, List.mem_cons, List.not_mem_nil, or_false] at hx
    rcases hx with rfl | rfl | rfl | rfl
    · exact hb₄ _ (.inl (hb₃ _ (.inl (hb₂ _ (.inl (hb₁ _ (.inr rfl)))))))
    · exact hb₄ _ (.inr rfl)
    · exact hb₄ _ (.inl (hb₃ _ (.inl (hb₂ _ (.inr rfl)))))
    · exact hb₄ _ (.inl (hb₃ _ (.inr rfl)))

/-! ### Programs -/

/-- Lowering starts with nothing. -/
theorem whole_start (inp : Input) (target : Target) : Whole inp { registry := .ofTarget target } where
  ordered := {
    accounted := .nil
    symbols := rfl
    registers := rfl
    blocks := rfl
    block := rfl
    ended := rfl
    kinds := fun n b hb => by simp [Chain.get] at hb
    enlisted := nofun }
  complete b hb := absurd hb (Nat.not_lt_zero b)
  owners n hn := absurd hn (Nat.not_lt_zero n)

/-- Nothing but declarations is commanded before the first function. -/
theorem whole_declareRuntime {target : Target}
    (hrun : Runs (declareRuntime inp) { registry := .ofTarget target } () s') :
    Whole inp s' := by
  have hall {xs : List String} {s s' : State} (hs : Whole inp s)
    (hrun : Runs (xs.forM (declareFunc · helperSig)) s () s') :
      Whole inp s' := by
    induction xs generalizing s with
    | nil =>
      obtain ⟨-, rfl⟩ := runs_pure.1 hrun
      exact hs
    | cons x xs ih =>
      obtain ⟨_, s₁, hdeclare, hrun₁⟩ := runs_bind.1 hrun
      exact ih (hs.declareFunc hdeclare).1 hrun₁
  obtain ⟨_, s₁, hheader, hrun₁⟩ := runs_bind.1 hrun
  obtain rfl := runs_modify.1 hheader
  have hs₁ : Whole inp { registry := .ofTarget target, commands := #[.declareStruct headerStruct] } := by
    have hstart := whole_start inp target
    exact ⟨hstart.ordered.command (c := .declareStruct headerStruct) trivial rfl rfl rfl rfl rfl
      rfl rfl rfl rfl rfl,
      hstart.complete, fun n hn => absurd hn (Nat.not_lt_zero n)⟩
  obtain ⟨_, s₂, hallocate, hrun₂⟩ := runs_bind.1 hrun₁
  obtain ⟨_, s₃, hrelease, hrun₃⟩ := runs_bind.1 hrun₂
  exact hall ((hs₁.declareFunc hallocate).1.declareFunc hrelease).1 hrun₃

/-- The host provides the function: it is one of the two hooks, or the program declares it without a body. -/
def Input.IsProvided (inp : Input) (name : String) : Prop :=
  name = inp.options.allocate ∨ name = inp.options.release ∨
    ∃ id ∈ inp.tree.reachedOutsideTypes, ∃ params result, inp.tree.form? id = some (.declareFunc name params result)

theorem mem_runtimeNames {o : Options} {name : String} : name ∈ runtimeNames o ↔ name = o.entry ∨
    name ∈ helperNames := by
  simp only [runtimeNames, helperNames, List.mem_cons, List.not_mem_nil, or_false]
  grind

/-- What the host provides is not defined: its names are taken by no function of the program or the runtime. -/
theorem Between.not_begun (hs : Between inp (runtimeNames inp.options) s) (hinp : inp.Regular)
    (hforeign : ∀ id ∈ inp.tree.reachedOutsideTypes, ∀ name params result,
      inp.tree.form? id = some (.declareFunc name params result) → name ∉ reservedNames inp.options)
    {name : String} (h : inp.IsProvided name) : ¬ Begun s name := by
  intro hbegun
  rcases hs.begun name hbegun with hmem | ⟨fn, hfn, rfl⟩
  · have hnodup := hinp.nodup
    rw [mem_runtimeNames] at hmem
    simp only [reservedNames, List.cons_append, List.nil_append, List.nodup_cons, List.mem_cons, not_or] at hnodup
    rcases h with rfl | rfl | ⟨id, hid, params, result, hform⟩
    · exact hmem.elim (fun h => hnodup.1.1 h.symm) hnodup.2.1.2
    · exact hmem.elim (fun h => hnodup.1.2.1 h.symm) hnodup.2.2.1
    · exact hforeign id hid name params result hform
        (by simp only [reservedNames, List.mem_append, List.mem_cons]; grind)
  · have hapart := hinp.apart fn hfn
    rcases h with heq | heq | ⟨id, -, params, result, hform⟩
    · exact hapart (heq ▸ by simp [reservedNames])
    · exact hapart (heq ▸ by simp [reservedNames])
    · exact hinp.foreign id _ params result hform (dot_mem_codeName hfn)

/-- When a program has been lowered, its commands are accounted for to the last. The entry and the helpers were
defined, and of the functions that were declared those that the host does not provide. -/
theorem completes_lowerProgram (hinp : inp.Regular) (hready : inp.Ready) {target : Target}
    (hrun : Runs (lowerProgram inp) { registry := .ofTarget target } () s') :
    Whole inp s' ∧ (∀ name ∈ runtimeNames inp.options, Begun s' name) ∧
      ∀ name, (s'.symbols.lookup name).isSome → (Begun s' name ↔ ¬ inp.IsProvided name) := by
  have hend := (settles_lowerProgram hinp target).1 () s' hrun
  obtain ⟨_, t₁, hnames, hrun₁⟩ := runs_bind.1 hrun
  obtain ⟨rfl, hforeign⟩ := notMem_of_checkNames hnames
  obtain ⟨_, t₂, hdeclare, hrun₂⟩ := runs_bind.1 hrun₁
  have hw₂ : Whole inp t₂ := whole_declareRuntime hdeclare
  obtain ⟨hs₂, hhelped₂⟩ := (settles_declareRuntime hinp target).1 () t₂ hdeclare
  have hchain₂ := (calm_declareRuntime.run hdeclare).1
  have hscopes₂ : Scoped inp none t₂ :=
    ((Fine.calm calm_declareRuntime).run (scoped_start inp target) hdeclare).1
  obtain ⟨_, t₃, hentry, hrun₃⟩ := runs_bind.1 hrun₂
  obtain ⟨hw₃, hb₃⟩ := whole_lowerEntry hready.linked hw₂ (by rw [hchain₂]; rfl) hentry
  obtain ⟨hs₃, hhelped₃⟩ := (settles_lowerEntry hinp hs₂ hhelped₂).1 () t₃ hentry
  have hscopes₃ := (fine_lowerEntry hready).run hscopes₂ hentry
  obtain ⟨_, t₄, hqueue, hruntime⟩ := runs_bind.1 hrun₃
  obtain ⟨h₄, hempty, hb₄⟩ :=
    Midway.lowerQueue hinp hready _ ⟨hs₃, hscopes₃.1, hw₃⟩ List.nodup_nil nofun (by simp) hqueue
  have hhelped₄ : Helped t₄ :=
    fun name hname => ((settles_lowerQueue hinp _ hs₃).1 () t₄ hqueue).2 _ _ (hhelped₃ name hname)
  obtain ⟨hw', hb'⟩ := h₄.defineRuntime hinp hready.linked hhelped₄ hruntime
  have hempty' : s'.queue = [] := (calm_defineRuntime.run hruntime).2.trans hempty
  have hruntimeBegun : ∀ name ∈ runtimeNames inp.options, Begun s' name := by
    intro name hname
    rcases mem_runtimeNames.1 hname with rfl | hhelper
    · exact hb' _ (.inl (hb₄ _ (hb₃ _ (.inr rfl))))
    · exact hb' name (.inr hhelper)
  refine ⟨hw', hruntimeBegun, fun name hdeclared =>
    ⟨fun hbegun hprovided => hend.not_begun hinp hforeign hprovided hbegun, fun hprovided => ?_⟩⟩
  rcases hend.named.known name hdeclared with hmem | ⟨fn, hfn⟩
  · rcases List.mem_append.1 hmem with hmem | hhelper
    · simp only [List.mem_cons, List.not_mem_nil, or_false] at hmem
      rcases hmem with rfl | hhook
      · exact hruntimeBegun _ (mem_runtimeNames.2 (.inl rfl))
      · exact absurd (hhook.imp_right .inl) hprovided
    · exact hruntimeBegun name (mem_runtimeNames.2 (.inr hhelper))
  · rcases hw'.ordered.enlisted fn name hfn with ⟨-, hbegun | ⟨p, hp, -⟩⟩ | ⟨hid, params, result, hform⟩
    · exact hbegun
    · rw [hempty'] at hp
      exact absurd hp List.not_mem_nil
    · exact absurd (.inr (.inr ⟨fn, hid, params, result, hform⟩)) hprovided

/-- The module that a lowered program builds is well formed, and no function was begun twice. -/
theorem wellFormed_of_lower (hinp : inp.Regular) (hready : inp.Ready) {target : Target}
    (hlower : (lower inp target).error = none) {m : Machine.Module}
    (hm : Built (lower inp target).state.commands m) :
    m.WellFormed inp.IsProvided ∧ (definitions (lower inp target).state.commands).Nodup := by
  obtain ⟨hwhole, -, hbegun⟩ := completes_lowerProgram hinp hready (runs_of_lower hlower)
  have hrecords := records_of_built hm
  have hagrees := agrees_of_built hwhole.ordered.accounted hm
  refine ⟨⟨functions_wellFormed hwhole.ordered.accounted hwhole.complete hm, hrecords.nodup, fun f hf => ?_⟩,
    hrecords.once⟩
  have hdeclared : ((lower inp target).state.symbols.lookup f.name).isSome := by
    rw [← hwhole.ordered.symbols]
    refine (hagrees.listed.sigs f.name) ▸ ?_
    rw [← find?_map_sig, Option.isSome_map]
    exact Array.find?_isSome.2 ⟨f, hf, by simp⟩
  exact (hrecords.isDefined_iff hf).trans (hbegun f.name hdeclared)

end TypedScript.Lower
