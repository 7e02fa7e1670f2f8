import TypedScript.Proofs.Lower.Orderly
import TypedScript.Proofs.Lower.Walk

/-!
# What scopes keep is defined

The scopes of a function keep registers: their objects, stack slots, and what is to be released when they are
left. These are read again wherever a name is used or a scope is left, in other blocks than the one they were
defined in. As long as code is made inside a scope, what it keeps is defined where instructions go to.

* `Furnished`: what the scopes of the function keep, from the scope at hand on outward, is defined.
* `Furnishes`: an orderly computation that changes no scope but the one at hand, and leaves it furnished.
-/

namespace TypedScript.Lower

open TypedScript.Ast TypedScript.Ast.Tree TypedScript.Binding TypedScript.Ir TypedScript.Layout TypedScript.Machine
open TypedScript.Scope

variable {inp : Input} {own : Option Nat} {pending : List Nat} {s s' : State} {α β : Type}

/-! ### Layouts and symbols -/

theorem orderly_survey {act : LowerM α} (h : Surveys act) : Orderly inp own s act fun _ _ => True := by
  refine .of_runs fun hs a s' hrun => ?_
  obtain ⟨r, rfl, hr⟩ := h.run hrun
  have hq : Quietly s { s with registry := r } := ⟨rfl, rfl, rfl, rfl, rfl, rfl, rfl, hr⟩
  exact ⟨hs.note hq rfl rfl rfl, .of_quietly hq rfl rfl, trivial⟩

theorem orderly_fieldOf (d : Descriptor) (name : String) : Orderly inp own s (fieldOf d name) fun _ _ => True := by
  unfold fieldOf
  split
  · exact .pure trivial
  · exact .throw trivial

theorem orderly_ofScope {r : Except Scope.Error α} : Orderly inp own s (ofScope r) fun _ a => r = .ok a := by
  unfold ofScope
  split
  · exact .pure rfl
  · exact .throw trivial

/-- The state in which a function is declared, and symbols may be given and functions made to wait with it. -/
def State.declared (s : State) (name : String) (sig : Sig) (codes : List (Nat × String))
    (queue : List Pending) : State :=
  { s with
    commands := s.commands.push (.declareFunc name sig)
    symbols := symbolsAfter s.symbols name sig
    codes := codes
    queue := queue }

theorem Ordered.declare (hs : Ordered inp s) (name : String) (sig : Sig) {codes : List (Nat × String)}
    {queue : List Pending}
    (henlisted : ∀ fn code, codes.lookup fn = some code → Enlisted inp (s.declared name sig codes queue) fn code) :
    Ordered inp (s.declared name sig codes queue) := by
  have hledger : (s.declared name sig codes queue).ledger = s.ledger.next (.declareFunc name sig) :=
    State.ledger_of_push rfl
  refine ⟨hs.accounted.push trivial, ?_, ?_, ?_, ?_, ?_, hs.kinds, henlisted⟩
  · rw [hledger]; exact congrArg (symbolsAfter · name sig) hs.symbols
  · rw [hledger]; exact hs.registers
  · rw [hledger]; exact hs.blocks
  · rw [hledger]; exact hs.block
  · rw [hledger]; exact hs.ended

theorem Moves.declare (s : State) (name : String) (sig : Sig) (codes : List (Nat × String)) (queue : List Pending) :
    Moves own [] s (s.declared name sig codes queue) :=
  .push (c := .declareFunc name sig) rfl rfl (fun _ h => h) rfl rfl (fun _ h => h) rfl rfl

theorem orderly_declareFunc (name : String) (sig : Sig) : Orderly inp own s
    (declareFunc name sig) fun _ _ => True := by
  refine .of_runs fun hs a s' hrun => ?_
  obtain rfl : s' = s.declared name sig s.codes s.queue := runs_declareFunc hrun
  have hcommands : (s.declared name sig s.codes s.queue).commands = s.commands.push (.declareFunc name sig) := rfl
  exact ⟨hs.declare name sig (hs.enlisted_of (fun _ hb => hb.push hcommands) rfl rfl),
    .declare s name sig _ _, trivial⟩

/-- The symbol of a function is known, or it is declared with the signature of the function. -/
theorem codeFor_cases {fn : Nat} {code : String} (h : Runs (codeFor inp fn) s code s') :
    s.codes.lookup fn = some code ∧ s' = s ∨ s.codes.lookup fn = none ∧ code = codeName inp.tree fn ∧
      ∃ r sig, s.registry.Extends r ∧ s' = State.declared { s with registry := r } code sig
        ((fn, code) :: s.codes) s.queue := by
  obtain ⟨_, t, hget, hrun⟩ := runs_bind.1 h
  obtain ⟨rfl, rfl⟩ := runs_get.1 hget
  split at hrun
  · rename_i name hname
    obtain ⟨rfl, rfl⟩ := runs_pure.1 hrun
    exact .inl ⟨hname, rfl⟩
  · rename_i hnew
    obtain ⟨out, s₁, hsig, hrun₁⟩ := runs_bind.1 hrun
    obtain ⟨r, rfl, hr⟩ := (surveys_signature inp _ _).run hsig
    obtain ⟨_, s₂, hdecl, hrun₂⟩ := runs_bind.1 hrun₁
    obtain rfl := runs_declareFunc hdecl
    obtain ⟨_, s₃, hmod, hrun₃⟩ := runs_bind.1 hrun₂
    obtain rfl := runs_modify.1 hmod
    obtain ⟨rfl, rfl⟩ := runs_pure.1 hrun₃
    exact .inr ⟨hnew, rfl, r, out.1, hr, rfl⟩

/-- A function that has got a symbol is enlisted with those that had one. -/
theorem Ordered.assign (hs : Ordered inp s) {r : Registry} (hr : s.registry.Extends r) {fn : Nat}
    {code : String} (sig : Sig) {queue : List Pending} (hqueue : ∀ p ∈ s.queue, p ∈ queue)
    (hself : Enlisted inp (State.declared { s with registry := r } code sig ((fn, code) :: s.codes) queue)
    fn code) :
    Ordered inp (State.declared { s with registry := r } code sig ((fn, code) :: s.codes) queue) ∧
      Moves own [] s (State.declared { s with registry := r } code sig ((fn, code) :: s.codes) queue) := by
  have hq : Quietly s { s with registry := r } := ⟨rfl, rfl, rfl, rfl, rfl, rfl, rfl, hr⟩
  refine ⟨(hs.note hq rfl rfl rfl).declare code sig fun fn' name hn => ?_,
    (Moves.of_quietly hq rfl rfl).trans (.declare _ _ _ _ _)⟩
  rcases lookup_cons_code hn with ⟨rfl, rfl⟩ | hold
  · exact hself
  · rcases hs.enlisted fn' name hold with ⟨hfn, hwait⟩ | hforeign
    · exact .inl ⟨hfn, hwait.imp (fun hb => hb.push rfl) fun ⟨p, hp, hcode⟩ => ⟨p, hqueue p hp, hcode⟩⟩
    · exact .inr hforeign

/-- The symbol of a declared function is its name. -/
theorem orderly_codeFor {fn : Nat} {name : String} {params : List Nat} {result : Nat}
    (hfn : fn ∈ inp.tree.reachedOutsideTypes) (hf : inp.tree.form? fn = some (.declareFunc name params result)) :
    Orderly inp own s (codeFor inp fn) fun _ _ => True := by
  refine .of_runs fun hs code s' hrun => ?_
  rcases codeFor_cases hrun with ⟨-, rfl⟩ | ⟨-, rfl, r, sig, hr, rfl⟩
  · exact ⟨hs, .refl _, trivial⟩
  · have hname : codeName inp.tree fn = name := by simp [codeName, hf]
    obtain ⟨hs', hm⟩ := hs.assign hr sig (fun _ h => h) (.inr ⟨hfn, params, result, hname.symm ▸ hf⟩)
    exact ⟨hs', hm, trivial⟩

/-- A function whose symbol is new waits from then on. -/
theorem orderly_enqueue {fn : Nat} (hfn : inp.tree.isFunction fn = true) (scope : Nat) :
    Orderly inp own s (enqueue inp fn scope) fun _ _ => True := by
  refine .of_runs fun hs code s' hrun => ?_
  obtain ⟨_, t, hget, hrun₀⟩ := runs_bind.1 hrun
  obtain ⟨rfl, rfl⟩ := runs_get.1 hget
  obtain ⟨name, s₁, hcode, hrun₁⟩ := runs_bind.1 hrun₀
  rcases codeFor_cases hcode with ⟨hknown, rfl⟩ | ⟨hnew, rfl, r, sig, hr, rfl⟩
  · simp only [hknown, Option.isSome_some, Bool.not_true, Bool.false_eq_true, if_false] at hrun₁
    obtain ⟨rfl, rfl⟩ := runs_pure.1 hrun₁
    exact ⟨hs, .refl _, trivial⟩
  · simp only [hnew, Option.isSome_none, Bool.not_false, if_true] at hrun₁
    obtain ⟨_, s₂, hmod, hrun₂⟩ := runs_bind.1 hrun₁
    obtain rfl := runs_modify.1 hmod
    obtain ⟨rfl, rfl⟩ := runs_pure.1 hrun₂
    have hwaits : ⟨fn, scope, codeName inp.tree fn⟩ ∈ t.queue ++ [⟨fn, scope, codeName inp.tree fn⟩] :=
      List.mem_append_right _ List.mem_cons_self
    obtain ⟨hs', hm⟩ := hs.assign hr sig (fun _ => List.mem_append_left _) (.inl ⟨hfn, .inr ⟨_, hwaits, rfl⟩⟩)
    exact ⟨hs', hm, trivial⟩

/-! ### Objects -/

theorem orderly_useStruct (d : Descriptor) : Orderly inp own s (useStruct d) fun _ _ => True := by
  refine .here ?_
  split
  · refine Orderly.of_runs fun hs a s' hrun => ?_
    obtain ⟨_, t₁, hemit, hrun₁⟩ := runs_bind.1 hrun
    obtain rfl := runs_modify.1 hemit
    obtain ⟨_, t₂, hmod, hrun₂⟩ := runs_bind.1 hrun₁
    obtain rfl := runs_modify.1 hmod
    obtain ⟨rfl, rfl⟩ := runs_pure.1 hrun₂
    refine ⟨hs.command (c := .declareStruct (structOf d)) trivial rfl rfl rfl rfl rfl rfl rfl rfl rfl rfl,
      ?_, trivial⟩
    exact .push (c := .declareStruct (structOf d)) rfl rfl (fun _ h => h) rfl rfl (fun _ h => h) rfl rfl
  · exact .pure trivial

theorem orderly_construct (d : Descriptor) : Orderly inp own s (construct inp d) fun s' v => s'.Has v := by
  refine (orderly_useStruct d).bind fun s₁ t _ _ => ?_
  refine (orderly_callDirect allocateSig (State.has_func _) (by simp)).bind fun s₂ obj _ hobj => ?_
  refine (orderly_slotAddr t hobj tagSlot).bind fun s₃ tag hm₃ htag => ?_
  refine (orderly_store htag (State.has_int _ _)).bind fun s₄ _ hm₄ _ => ?_
  have hobj₄ := (hobj.moves hm₃).moves hm₄
  refine (orderly_slotAddr t hobj₄ countSlot).bind fun s₅ count hm₅ hcount => ?_
  refine (orderly_store hcount (State.has_int _ _)).bind fun s₆ _ hm₆ _ => ?_
  have hobj₆ := (hobj₄.moves hm₅).moves hm₆
  refine (Regime.Goes.forM (I := fun _ => True) trivial fun f _ s₇ hm₇ _ => ?_).bind fun s₈ _ hm₈ _ => ?_
  · exact (orderly_slotAddr t (hobj₆.moves hm₇) f.slot).bind fun _ _ _ haddr => orderly_store haddr State.has_null
  · refine (orderly_note ⟨rfl, rfl, rfl, rfl, rfl, rfl, rfl, .refl _⟩ rfl rfl rfl rfl).bind fun s₉ _ hm₉ _ =>
      .pure ?_
    exact (hobj₆.moves hm₈).moves hm₉

theorem State.has_literal {v : Operand} (h : IsLiteral v) : s.Has v := by
  cases v with
  | reg r => exact h.elim
  | null | int | float | bool | string | func | absent => exact fun _ heq => by cases heq

/-- Instructions ask for operands that are defined, and give such. -/
@[reducible]
def orderlyInstructions (inp : Input) : Instructions inp where
  toRegime := (orderlyRegime inp).toRegime
  Has := State.Has
  Given := State.Has
  Asked _ _ := True
  Layout _ _ := True
  Struct _ _ := True
  Slot _ := True
  Callable _ _ _ := True
  has_mono hm h := h.moves hm
  given_mono hm h := h.moves hm
  asked_mono _ _ := trivial
  layout_mono _ _ := trivial
  struct_mono _ _ := trivial
  callable_mono _ _ := trivial
  has_given h := h
  has_literal := State.has_literal
  has_absent := State.has_absent
  asked_given _ := trivial
  asked_literal _ := trivial
  callable_given _ := trivial
  allowed_translation := trivial
  allowed_callee := trivial
  slot_tag := trivial
  load type h := orderly_load type h
  store haddr hv := orderly_store haddr hv
  alloca type := orderly_alloca type
  slotAddr _ h _ := orderly_slotAddr _ h _
  compare pred hx _ hy := orderly_compare pred hx hy
  binary op hx _ hy := orderly_binary op hx hy
  callDirect _ hcallee hargs := orderly_callDirect _ hcallee hargs
  callHelper _ h :=
    (orderly_callDirect helperSig (State.has_func _) (List.forall_mem_cons.2
      ⟨State.has_null, List.forall_mem_singleton.2 h⟩)).bind fun _ _ _ _ => .pure trivial
  constant v := orderly_constant v
  useStruct _ := orderly_useStruct _
  header _ := trivial
  construct _ := orderly_construct _
  fieldOf name _ := orderly_fieldOf _ name
  layout_all _ _ := trivial
  layout_closure _ := trivial
  repOf id := orderly_survey (surveys_repOf inp id)
  signature type span := orderly_survey (surveys_signature inp type span)
  noteAttribute _ _ :=
    (orderly_note ⟨rfl, rfl, rfl, rfl, rfl, rfl, rfl, .refl _⟩ rfl rfl rfl rfl).imp fun _ _ _ _ => trivial

/-! ### Furnished scopes -/

/-- What the scope keeps is defined where instructions go to. -/
structure State.Stocks (s : State) (n : Scope.Node) : Prop where
  object : s.Has n.object
  slots : ∀ b ∈ n.bindings, s.Has b.slot
  deferred : ∀ d ∈ n.deferred, s.Has d.operand

theorem State.Stocks.moves {n : Scope.Node} (h : s.Stocks n) (hm : Moves own pending s s') : s'.Stocks n where
  object := h.object.moves hm
  slots b hb := (h.slots b hb).moves hm
  deferred d hd := (h.deferred d hd).moves hm

/-- The environment is defined, and what is kept by the scope and those around it that belong to its function. -/
structure Furnished (s : State) (cur : Nat) : Prop where
  lt : cur < s.chain.nodes.size
  parent : ∀ p, (s.chain.get cur).parent = some p → p < cur
  env : s.Has s.env
  nodes : ∀ n ∈ s.chain.outward cur, s.chain.function n = s.chain.function cur → s.Stocks (s.chain.get n)

/-- The scopes around a scope stay the same. The induction is outward. -/
theorem Moves.outward_eq (h : Moves own pending s s') {n : Nat} (hn : n < s.chain.nodes.size) :
    s'.chain.outward n = s.chain.outward n := by
  induction n using Nat.strongRecOn with
  | ind n ih =>
    rw [Chain.outward, Chain.outward, (h.links n hn).1]
    split
    · rename_i p hp
      split
      · rename_i hlt
        rw [ih p hlt (Nat.lt_trans hlt hn)]
      · rfl
    · rfl

section

variable {cur : Nat}

theorem Furnished.lt_of_mem (h : Furnished s cur) {n : Nat} (hn : n ∈ s.chain.outward cur) :
    n < s.chain.nodes.size :=
  Nat.lt_of_le_of_lt (le_of_mem_outward _ _ n hn) h.lt

/-- The scope at hand may have changed, as long as what it keeps now is defined. -/
theorem Furnished.change (h : Furnished s cur) (hm : Moves (some cur) pending s s')
    (hcur : s'.Stocks (s'.chain.get cur)) : Furnished s' cur where
  lt := Nat.lt_of_lt_of_le h.lt hm.size
  parent p hp := h.parent p ((hm.links cur h.lt).1.symm.trans hp)
  env := hm.env ▸ h.env.moves hm
  nodes n hn hfn := by
    rw [hm.outward_eq h.lt] at hn
    have hlt := h.lt_of_mem hn
    by_cases heq : n = cur
    · exact heq ▸ hcur
    · rw [Chain.function, Chain.function, (hm.links n hlt).2, (hm.links cur h.lt).2] at hfn
      rw [hm.nodes n hlt fun hsome => heq (Option.some.inj hsome).symm]
      exact (h.nodes n hn hfn).moves hm

theorem Furnished.self (h : Furnished s cur) : s.Stocks (s.chain.get cur) := h.nodes cur (mem_outward_self cur) rfl

/-- The scopes are as they were. -/
theorem Furnished.moves (h : Furnished s cur) (hm : Moves none pending s s') : Furnished s' cur := by
  refine h.change hm.any ?_
  rw [hm.nodes cur h.lt nofun]
  exact h.self.moves hm

/-- A scope inside a furnished one, that keeps nothing yet. -/
theorem Furnished.push (h : Furnished s cur) {node : Scope.Node} (hp : node.parent = some cur)
    (hfn : node.function = s.chain.function cur) (hnode : s.Stocks node)
    (hchain : s'.chain = ⟨s.chain.nodes.push node⟩) (hm : Moves none pending s s') :
    Furnished s' s.chain.nodes.size where
  lt := by simp [hchain]
  parent p hparent := by
    rw [hchain, Chain.get_push, if_pos rfl, hp] at hparent
    exact Option.some.inj hparent ▸ h.lt
  env := (h.moves hm).env
  nodes n hn hf := by
    have hself : s'.chain.nodes[s.chain.nodes.size]? = some node := by
      rw [hchain]
      exact Array.getElem?_push_size
    rw [outward_child hself hp h.lt, hm.outward_eq h.lt] at hn
    rcases List.mem_cons.1 hn with rfl | hn
    · rw [get_eq hself]
      exact hnode.moves hm
    · have hlt := h.lt_of_mem hn
      rw [Chain.function, Chain.function, get_eq hself, hfn, (hm.links n hlt).2] at hf
      rw [hm.nodes n hlt fun h => by cases h]
      exact (h.nodes n hn hf).moves hm

end

/-- The scope at hand, which is furnished. -/
abbrev furnishedPart (inp : Input) (cur : Nat) : (orderlyRegime inp).toRegime.Part :=
  ⟨(Furnished · cur), some cur, fun hm hs => hs.moves hm⟩

/-- From a furnished scope the computation changes no scope but that one, and leaves it furnished. -/
abbrev Furnishes (inp : Input) (cur : Nat) (s : State) (act : LowerM α) (Q : State → α → Prop) : Prop :=
  (orderlyRegime inp).toRegime.Stays (furnishedPart inp cur) s act Q

/-! ### Opening and changing scopes -/

theorem Moves.open {node : Scope.Node} (h : ∃ k < s.chain.nodes.size, node.function = s.chain.function k) :
    Moves none [] s { s with chain := ⟨s.chain.nodes.push node⟩ } where
  begun _ hb := hb
  blocks := Nat.le_refl _
  starts _ _ := rfl
  ended _ hb := hb
  closed := (Moves.refl s : Moves none [] s s).closed
  here _ hr := hr
  ahead _ hb := nomatch hb
  env := rfl
  size := by simp
  nodes n hn _ := by rw [Chain.get_push, if_neg (Nat.ne_of_lt hn)]
  links n hn := by
    rw [Chain.get_push, if_neg (Nat.ne_of_lt hn)]
    exact ⟨rfl, rfl⟩
  functions n hge hlt := by
    have heq : n = s.chain.nodes.size := by
      rw [Array.size_push] at hlt
      omega
    rw [Chain.function, Chain.get_push, if_pos heq]
    exact h

/-- A scope is opened inside the one at hand. -/
theorem orderly_openNode {cur : Nat} (node : Scope.Node) {f : State → Nat × State} (hs : Furnished s cur)
    (hf : f s = (s.chain.nodes.size, { s with chain := ⟨s.chain.nodes.push node⟩ })) (hp : node.parent = some cur)
    (hfn : node.function = s.chain.function cur) (hobject : node.object = .absent) (hbindings : node.bindings = [])
    (hdeferred : node.deferred = []) :
    Orderly inp none s (modifyGet f) fun s' k => Furnished s' k ∧ s.chain.nodes.size ≤ k := by
  refine .of_runs fun hord k s' hrun => ?_
  obtain ⟨rfl, rfl⟩ := runs_modifyGet.1 hrun
  rw [hf]
  have hm : Moves none [] s { s with chain := ⟨s.chain.nodes.push node⟩ } := .open ⟨cur, hs.lt, hfn⟩
  have hstocks : s.Stocks node := ⟨by simp [hobject], by simp [hbindings], by simp [hdeferred]⟩
  refine ⟨hord.change fun n b hb => ?_, hm, hs.push hp hfn hstocks rfl hm,
    Nat.le_refl _⟩
  rw [Chain.get_push] at hb
  split at hb
  · simp [hbindings] at hb
  · exact hord.kinds n b hb

theorem orderly_openTransient {cur : Nat} (hs : Furnished s cur) :
    Orderly inp none s (openTransient cur) fun s' k => Furnished s' k ∧ s.chain.nodes.size ≤ k :=
  orderly_openNode { parent := some cur, container := 0, function := s.chain.function cur } hs rfl
    rfl rfl rfl rfl rfl

theorem orderly_openChild {cur function : Nat} (container : Nat) (hs : Furnished s cur)
    (hfn : function = s.chain.function cur) :
    Orderly inp none s (openChild cur container function) fun s' k => Furnished s' k ∧ s.chain.nodes.size ≤ k :=
  orderly_openNode { parent := some cur, container, function } hs rfl rfl hfn rfl rfl rfl

/-- The scope at hand is changed, and keeps only what is defined. -/
theorem furnishes_modifyScope {cur : Nat} {f : Scope.Node → Scope.Node}
    (hlinks : ∀ n, (f n).parent = n.parent ∧ (f n).function = n.function)
    (hkinds : (∀ b ∈ (s.chain.get cur).bindings, b.kind.isFunction = isNamedFunction inp.tree b.decl) →
      ∀ b ∈ (f (s.chain.get cur)).bindings, b.kind.isFunction = isNamedFunction inp.tree b.decl)
    (hstocks : s.Stocks (s.chain.get cur) → s.Stocks (f (s.chain.get cur))) :
    Furnishes inp cur s (modifyScope cur f) fun s' _ => s' = { s with chain := s.chain.modify cur f } := by
  intro hs
  have hget (n : Nat) : (s.chain.modify cur f).get n = if n = cur then f (s.chain.get n) else s.chain.get n := by
    rw [Chain.get_modify]
    simp only [hs.lt, and_true]
  have hsize : (s.chain.modify cur f).nodes.size = s.chain.nodes.size := by simp [Chain.modify]
  have hm : Moves (some cur) [] s { s with chain := s.chain.modify cur f } := by
    have hrefl : Moves (some cur) [] s s := .refl s
    refine ⟨hrefl.begun, hrefl.blocks, hrefl.starts, hrefl.ended, hrefl.closed, hrefl.here, hrefl.ahead, rfl,
      Nat.le_of_eq hsize.symm, fun n _ hne => ?_, fun n _ => ?_, fun n hge hlt => ?_⟩
    · rw [hget, if_neg fun heq => hne (congrArg some heq.symm)]
    · rw [hget]
      split
      · exact hlinks _
      · exact ⟨rfl, rfl⟩
    · have hlt' : n < (s.chain.modify cur f).nodes.size := hlt
      omega
  refine .change (fun hord => hord.change fun n b hb => ?_) hm id
    ⟨hs.change hm ?_, rfl⟩
  · rw [hget] at hb
    split at hb
    · rename_i heq
      subst heq
      exact hkinds (hord.kinds n) b hb
    · exact hord.kinds n b hb
  · rw [hget, if_pos rfl]
    exact (hstocks hs.self).moves hm

theorem furnishes_defer {cur : Nat} {d : Deferred} (h : s.Has d.operand) : Furnishes inp cur s
    (defer cur d) fun _ _ => True := by
  refine (furnishes_modifyScope (f := fun node => { node with deferred := node.deferred ++ [d] })
    (fun _ => ⟨rfl, rfl⟩)
    (fun hkinds => hkinds) fun hstocks => ⟨hstocks.object, hstocks.slots, fun d' hd' => ?_⟩).imp fun _ _ _ _ =>
    trivial
  rcases List.mem_append.1 hd' with hd' | hd'
  · exact hstocks.deferred d' hd'
  · exact List.mem_singleton.1 hd' ▸ h

/-! ### Names -/

/-- A pointer to the scope object of a scope further out. -/
theorem orderly_scopePointer {cur : Nat} {target : Option Nat} (hs : Furnished s cur)
    (h : ∀ m, target = some m → m ∈ s.chain.outward cur) :
    Orderly inp own s (scopePointer cur target) fun s' v => s'.Has v := by
  cases target with
  | none => exact .pure State.has_null
  | some m =>
    refine .here ?_
    dsimp only
    split
    · rename_i hfn
      exact .pure (hs.nodes m (h m rfl) hfn).object
    · split
      · exact .throw trivial
      · refine .here (.foldlM hs.env fun v hop s₁ hv => ?_)
        refine Regime.Goes.bind (Q := fun (s' : State) _ => s'.Has v) (.here (.here (.pure hv)))
          fun s₂ d _ hv₂ => ?_
        exact (orderly_fieldOf d _).bind fun s₃ f hm₃ _ =>
          goes_loadField (I := orderlyInstructions inp) trivial (hv₂.moves hm₃) trivial

/-- The scope whose object the one of a scope links to lies further out. -/
theorem Furnished.mem_of_parentEnv? {cur m : Nat} (hs : Furnished s cur) (hm : parentEnv? s.chain cur = some m) :
    m ∈ s.chain.outward cur := by
  obtain ⟨p, hp, hm⟩ := Option.bind_eq_some_iff.1 hm
  rw [Chain.outward, hp]
  dsimp only
  rw [if_pos (hs.parent p hp)]
  exact List.mem_cons_of_mem _ (mem_outward_of_envAt? hm).1

/-- What a name refers to is kept by a scope further out, and its slot is defined if it can be used here. -/
structure Refers (inp : Input) (s : State) (cur : Nat) (ref : Scope.Ref) : Prop where
  mem : ref.node ∈ s.chain.outward cur
  kind : ref.binding.kind.isFunction = isNamedFunction inp.tree ref.binding.decl
  slot : ref.binding.kind.isFunction = false → ref.binding.inObject = false → s.Has ref.binding.slot

theorem Refers.moves {cur : Nat} {ref : Scope.Ref} (h : Refers inp s cur ref) (hcur : cur < s.chain.nodes.size)
    (hm : Moves own pending s s') : Refers inp s' cur ref where
  mem := by
    rw [hm.outward_eq hcur]
    exact h.mem
  kind := h.kind
  slot hkind hobject := (h.slot hkind hobject).moves hm

/-- What is found going outward can be referred to. -/
theorem refers_of_refTo (hord : Ordered inp s) {cur : Nat} (hs : Furnished s cur) {p : Scope.Binding → Bool}
    {b : Scope.Binding} {owner : Nat} (hfind : s.chain.find? cur p = some (b, owner)) {ref : Scope.Ref}
    (href : s.chain.refTo cur b owner = .ok ref) :
    ref.binding = b ∧ p b = true ∧ Refers inp s cur ref := by
  obtain ⟨m, hm, hmap⟩ := List.exists_of_findSome?_eq_some hfind
  obtain ⟨b', hb', heq⟩ := Option.map_eq_some_iff.1 hmap
  obtain ⟨rfl, rfl⟩ := Prod.mk.inj heq
  have hmem := List.mem_of_find?_eq_some hb'
  have hkind := hord.kinds m b' hmem
  unfold Chain.refTo at href
  split at href
  · rename_i hsame
    obtain rfl := Except.ok.inj href
    refine ⟨rfl, List.find?_some hb', hm, hkind, fun hfun _ => ?_⟩
    have hfn : s.chain.function m = s.chain.function cur := by simpa [hfun] using hsame
    exact (hs.nodes m hm hfn).slots b' hmem
  · split at href
    · exact nomatch href
    · rename_i hobject
      split at href
      · obtain rfl := Except.ok.inj href
        refine ⟨rfl, List.find?_some hb', hm, hkind, fun _ hnot => absurd hnot ?_⟩
        simpa using hobject
      · exact nomatch href

theorem refers_of_lookupDecl (hord : Ordered inp s) {cur decl : Nat} (hs : Furnished s cur) {name : String}
    {span : Source.Span} {ref : Scope.Ref} (h : s.chain.lookupDecl cur decl name span = .ok ref) :
    ref.binding.decl = decl ∧ Refers inp s cur ref := by
  unfold Chain.lookupDecl at h
  split at h
  · rename_i b owner hfind
    obtain ⟨rfl, hp, href⟩ := refers_of_refTo hord hs hfind h
    simp only [Bool.and_eq_true, decide_eq_true_eq] at hp
    exact ⟨hp.2, href⟩
  · exact nomatch h

theorem orderly_lookup {cur : Nat} (hs : Furnished s cur) (id : Nat) :
    Orderly inp own s (lookup inp cur id) fun s' ref => Refers inp s' cur ref := by
  refine .of_inv fun hord => .here ?_
  dsimp only
  split
  · refine orderly_ofScope.imp fun s' ref hm href => ?_
    exact (refers_of_lookupDecl hord hs href).2.moves hs.lt hm
  · split
    · rename_i ref href
      refine .pure ?_
      unfold Chain.lookup at href
      split at href
      · rename_i b owner hfind
        exact (refers_of_refTo hord hs hfind href).2.2
      · cases href
    · exact .throw trivial

theorem orderly_bindingAddr {cur : Nat} {ref : Scope.Ref} (hs : Furnished s cur) (href : Refers inp s cur ref)
    (hkind : ref.binding.kind.isFunction = false) : Orderly inp own s (bindingAddr cur ref) fun s' v =>
    s'.Has v := by
  unfold bindingAddr
  dsimp only
  split
  · refine (orderly_scopePointer hs fun m hm => Option.some.inj hm ▸ href.mem).bind fun s₁ base _ hbase => ?_
    refine Regime.Goes.bind (Q := fun (s' : State) _ => s'.Has base) (.here (.here (.pure hbase)))
      fun s₂ d _ hbase₂ => ?_
    exact goes_fieldAddr (I := orderlyInstructions inp) trivial hbase₂ trivial
  · rename_i hobject
    exact .pure (href.slot hkind (by simpa using hobject))

/-! ### Entering a container -/

section

variable (inp) (scope : Nat)

theorem furnishes_addBinding {b : Scope.Binding} (hkind : b.kind.isFunction = isNamedFunction inp.tree b.decl)
    (hslot : b.slot = .absent) :
    Furnishes inp scope s (modify fun s => { s with chain := s.chain.declare scope b } : LowerM Unit) fun _ _ =>
      True := by
  refine (furnishes_modifyScope (f := fun node => { node with bindings := b :: node.bindings })
    (fun _ => ⟨rfl, rfl⟩)
    (fun hkinds => List.forall_mem_cons.2 ⟨hkind, hkinds⟩) fun hstocks => ?_).imp fun _ _ _ _ => trivial
  exact ⟨hstocks.object, List.forall_mem_cons.2 ⟨hslot ▸ State.has_absent, hstocks.slots⟩, hstocks.deferred⟩

theorem furnishes_declareBinding (escaping : Bool) {decl : Nat} (hdecl : decl ∈ inp.tree.reachedOutsideTypes) :
    Furnishes inp scope s (declareBinding inp scope escaping decl) fun _ _ => True := by
  unfold declareBinding
  dsimp only
  split
  · exact .pure trivial
  · rename_i hf
    refine .step (orderly_codeFor hdecl hf) fun s₁ code _ _ => ?_
    refine .step (orderly_survey (surveys_repOf inp decl)) fun s₂ rep _ _ => ?_
    exact furnishes_addBinding inp scope (by simp [isNamedFunction, hf, BindingKind.isFunction]) rfl
  · rename_i hf
    have hfun : inp.tree.isFunction decl = true := by simp [Tree.isFunction, hf, Form.isFunction]
    refine .step (orderly_enqueue hfun scope) fun s₁ code _ _ => ?_
    refine .step (orderly_survey (surveys_repOf inp decl)) fun s₂ rep _ _ => ?_
    exact furnishes_addBinding inp scope (by simp [isNamedFunction, hf, BindingKind.isFunction]) rfl
  · rename_i hforeign hfunction
    refine .step (orderly_survey (surveys_repOf inp decl)) fun s₁ rep _ _ => furnishes_addBinding inp scope ?_ rfl
    have hnot : isNamedFunction inp.tree decl = false := by
      unfold isNamedFunction
      split
      · exact absurd ‹_› (hforeign _ _ _)
      · exact absurd ‹_› (hfunction _ _ _ _)
      · rfl
    rw [hnot]
    split <;> rfl

theorem furnishes_makeScopeObject (container : Nat) (vars : List Scope.Binding) :
    Furnishes inp scope s (makeScopeObject inp scope container vars) fun _ _ => True := by
  refine .here ?_
  obtain ⟨hextends, -⟩ := Registry.extends_scope s.registry (scopeKey inp.tree container)
    (vars.map fun b => ⟨fieldName b.name, b.rep⟩)
  dsimp only
  generalize s.registry.scope (scopeKey inp.tree container) (vars.map fun b => ⟨fieldName b.name, b.rep⟩) =
    made at *
  obtain ⟨r, d⟩ := made
  refine .step (orderly_note ⟨rfl, rfl, rfl, rfl, rfl, rfl, rfl, hextends⟩ rfl rfl rfl rfl) fun s₁ _ _ _ => ?_
  refine .step (orderly_construct d) fun s₂ object _ hobject => ?_
  refine (furnishes_modifyScope (f := fun n => { n with layout := some d, object := object }) (fun _ => ⟨rfl, rfl⟩)
    (fun hkinds => hkinds) fun hstocks => ⟨hobject, hstocks.slots, hstocks.deferred⟩).bind fun s₃ _ hm₃ _ => ?_
  refine .here (.of_goes fun hs₃ => ?_)
  have hobject₃ := hobject.moves hm₃
  refine (orderly_scopePointer hs₃ fun m hm => hs₃.mem_of_parentEnv? hm).locate.bind fun s₄ parent hm₄ hparent => ?_
  refine (orderly_fieldOf d _).bind fun s₅ link hm₅ _ => ?_
  refine (goes_retain (I := orderlyInstructions inp) .scope (hparent.moves hm₅)).bind fun s₆ _ hm₆ _ => ?_
  exact goes_storeField (I := orderlyInstructions inp) trivial (((hobject₃.moves hm₄).moves hm₅).moves hm₆) trivial
    ((hparent.moves hm₅).moves hm₆)

/-- The place of a binding is set. -/
theorem furnishes_setBinding {decl : Nat} {f : Scope.Binding → Scope.Binding}
    (hf : ∀ b, (f b).decl = b.decl ∧ (f b).kind = b.kind) (hslot : ∀ b, s.Has b.slot → s.Has (f b).slot) :
    Furnishes inp scope s (modifyScope scope fun n =>
      { n with bindings := n.bindings.map fun b => if b.decl = decl then f b else b }) fun _ _ => True := by
  refine (furnishes_modifyScope
    (f := fun n => { n with bindings := n.bindings.map fun b => if b.decl = decl then f b else b })
    (fun _ => ⟨rfl, rfl⟩)
    (fun hkinds b hb => ?_) fun hstocks => ⟨hstocks.object, fun b hb => ?_, hstocks.deferred⟩).imp fun _ _ _ _ =>
    trivial
  · obtain ⟨b₀, hb₀, rfl⟩ := List.mem_map.1 hb
    split
    · rw [(hf b₀).1, (hf b₀).2]
      exact hkinds b₀ hb₀
    · exact hkinds b₀ hb₀
  · obtain ⟨b₀, hb₀, rfl⟩ := List.mem_map.1 hb
    split
    · exact hslot b₀ (hstocks.slots b₀ hb₀)
    · exact hstocks.slots b₀ hb₀

theorem furnishes_placeVariable (b : Scope.Binding) :
    Furnishes inp scope s (placeVariable inp scope b) fun _ _ => True := by
  unfold placeVariable
  dsimp only
  split
  · refine .of_kept fun hs => .bind (Q := fun s' n => s' = s ∧ n = s.chain.get scope)
      (.here (.pure ⟨rfl, rfl⟩)) ?_
    rintro s₁ node - ⟨rfl, rfl⟩
    refine .step (orderly_fieldOf _ _) fun s₂ field hm₂ _ => ?_
    refine (furnishes_setBinding inp scope (f := fun b' => { b' with field }) (fun _ => ⟨rfl, rfl⟩)
      fun _ h => h).bind
      fun s₃ _ hm₃ _ => ?_
    split
    · refine .step (goes_fieldAddr (I := orderlyInstructions inp) trivial
        ((hs.self.object.moves hm₂).moves hm₃) trivial) fun s₄ addr _ haddr => ?_
      exact furnishes_defer haddr
    · exact .pure trivial
  · refine .step (orderly_alloca _) fun s₁ slot _ hslot => ?_
    refine (furnishes_setBinding inp scope (f := fun b' => { b' with slot }) (fun _ => ⟨rfl, rfl⟩) fun _ _ =>
      hslot).bind
      fun s₂ _ hm₂ _ => ?_
    split
    · refine .step (orderly_store (hslot.moves hm₂) State.has_null) fun s₃ _ hm₃ _ => ?_
      exact furnishes_defer ((hslot.moves hm₂).moves hm₃)
    · exact .pure trivial

theorem furnishes_enterContainer (container : Nat) :
    Furnishes inp scope s (enterContainer inp scope container) fun _ _ => True := by
  refine (furnishes_modifyScope (f := fun n => { n with escaping := inp.analysis.isEscaping container })
    (fun _ => ⟨rfl, rfl⟩) (fun hkinds => hkinds) fun hstocks =>
    ⟨hstocks.object, hstocks.slots, hstocks.deferred⟩).bind
    fun s₁ _ _ _ => ?_
  refine .bind (.forM fun decl hdecl s₂ _ => furnishes_declareBinding inp scope _ (mem_decls.1 hdecl).1)
    fun s₂ _ _ _ => ?_
  refine .bind (Q := fun _ _ => True) (.here (.pure trivial)) fun s₃ node _ _ => ?_
  dsimp only
  have hplace (s : State) (vars : List Scope.Binding) :
      Furnishes inp scope s (vars.forM (placeVariable inp scope)) fun _ _ => True :=
    .forM fun b _ _ _ => furnishes_placeVariable inp scope b
  split
  · refine (furnishes_makeScopeObject inp scope container _).bind fun s₄ _ _ _ =>
      (hplace s₄ _).bind fun s₅ _ _ _ => ?_
    refine .of_kept fun hs => .bind (Q := fun s' n => s' = s₅ ∧ n = s₅.chain.get scope)
      (.here (.pure ⟨rfl, rfl⟩)) ?_
    rintro s₆ node - ⟨rfl, rfl⟩
    exact furnishes_defer hs.self.object
  · exact (hplace s₃ _).bind fun _ _ _ _ => .pure trivial

end

/-! ### The view -/

theorem refers_of_declared {cur id : Nat} (hord : Ordered inp s) (hs : Furnished s cur) {name : String}
    {span : Source.Span} {ref : Scope.Ref} (h : s.chain.lookupDecl cur id name span = .ok ref)
    (hnot : isNamedFunction inp.tree id = false) :
    Refers inp s cur ref ∧ ref.binding.kind.isFunction = false := by
  obtain ⟨hdecl, href⟩ := refers_of_lookupDecl hord hs h
  exact ⟨href, href.kind.trans (hdecl ▸ hnot)⟩

/-- What is read is defined, and no block is left open. -/
@[reducible]
def orderlyView (hlinked : inp.tree.Linked) : View inp where
  toInstructions := orderlyInstructions inp
  Settled _ := True
  Ended s := s.block ∈ s.ended
  Quiet s s' := s'.ledger.here = s.ledger.here
  Made s s' b := b < s'.blocks ∧ s'.ledger.starts b = s.ledger.here
  Admits := State.Admits
  settled _ := trivial
  settled_ended _ := trivial
  isEnded := by
    rintro s _ ⟨rfl, -⟩ -
    exact ⟨fun _ => trivial, List.contains_iff_mem.1⟩
  quiet := rfl
  made hm hb := hm.ahead _ hb
  made_mono hm h := ⟨Nat.lt_of_lt_of_le h.1 hm.blocks, (hm.starts _ h.1).trans h.2⟩
  admits hm h := ⟨h.1, fun r hr => hm.here r (h.2 ▸ hr)⟩
  admits_mono hm h := h.moves hm
  newBlock name hm hquiet _ := (hm.newBlock hquiet name).imp fun _ _ hq => ⟨hq.1, hq.2, trivial⟩
  br hb _ := (orderly_br hb trivial).imp fun _ _ hq => ⟨hq.1, hq.2.2⟩
  condBr hc hb hb' _ := (orderly_condBr hc hb hb' trivial).imp fun _ _ hq => ⟨hq.1, hq.2.2⟩
  setInsert hm hended hperm :=
    (hm.setInsert _ _ hended fun _ => hperm.mem_iff.trans List.mem_cons).imp fun _ _ hq =>
      ⟨hq.1, trivial, fun c hc => ⟨(hq.2 c).1 ▸ hc.1, (hq.2 c).2.trans hc.2⟩⟩
  ret hv _ := (orderly_ret hv trivial).imp fun _ _ hq => ⟨hq.1, hq.2.2⟩
  Computed s _ v := s.Has v
  SymbolOf _ _ _ := True
  computed_mono hm h := h.moves hm
  symbolOf_mono _ _ := trivial
  has_computed h := h
  computed_given h := h
  computed_literal := State.has_literal
  computed_symbol _ := State.has_func _
  computed_assign _ h := h
  computed_void _ _ _ := State.has_absent
  asked_unary _ _ := trivial
  asked_binary _ _ _ := trivial
  callable _ _ _ := trivial
  Inside := Furnished
  Within _ _ _ := True
  Opened _ _ _ := True
  Entered _ _ _ := True
  New s k := s.chain.nodes.size ≤ k
  Stocked s n := n < s.chain.nodes.size ∧ s.Stocks (s.chain.get n)
  Refers s k _ ref := Refers inp s k ref
  Place s k ref := Refers inp s k ref ∧ ref.binding.kind.isFunction = false
  inside_mono hm h := h.moves hm
  within_mono _ _ := trivial
  entered_mono _ _ := trivial
  new_mono hm h := Nat.le_trans hm.size h
  stocked_mono hm h := by
    refine ⟨Nat.lt_of_lt_of_le h.1 hm.size, ?_⟩
    rw [hm.nodes _ h.1 fun heq => by cases heq]
    exact h.2.moves hm
  place_mono hk hm h := ⟨h.1.moves hk.lt hm, h.2⟩
  stocked h := ⟨h.lt, h.self⟩
  stocked_unwind := by
    rintro s _ k n ⟨rfl, -⟩ hk hn
    have hmem : n ∈ s.chain.outward k := List.takeWhile_subset _ hn
    exact ⟨hk.lt_of_mem hmem, hk.nodes n hmem (by simpa using List.mem_takeWhile_imp hn)⟩
  has_deferred := by
    rintro s _ n d ⟨rfl, -⟩ hn hd
    exact hn.2.deferred d hd
  inner hm hnew hm' := hm.ofInner hm' hnew
  operand _ _ _ := trivial
  arg _ _ _ := trivial
  property _ _ _ := trivial
  within_entered _ _ := trivial
  defer hk hd := (furnishes_defer hd hk).imp fun _ _ _ hq => hq.1
  openTransient hk _ := (orderly_openTransient hk).imp fun _ _ _ hq => ⟨hq.1, trivial, hq.2⟩
  openChild := by
    rintro s _ k id body ⟨rfl, -⟩ hk - -
    exact (orderly_openChild id hk rfl).imp fun _ _ _ hq => ⟨hq.1, trivial, hq.2⟩
  enterContainer hk _ := (furnishes_enterContainer inp _ _ hk).imp fun _ _ _ hq => ⟨hq.1, trivial⟩
  lookup hk _ _ := orderly_lookup hk _
  place h hkind := ⟨h, hkind⟩
  symbol _ _ := trivial
  bindingAddr hk h := orderly_bindingAddr hk h.1 h.2
  namedPointer := by
    rintro _ s _ k id ref ⟨rfl, -⟩ hk href -
    exact orderly_scopePointer hk fun m hm => outward_trans href.mem (mem_outward_of_envAt? hm).1
  ownPointer := by
    rintro _ s _ k id ⟨rfl, -⟩ hk -
    exact orderly_scopePointer hk fun m hm => (mem_outward_of_envAt? hm).1
  enqueue _ hf := orderly_enqueue (by simp [isFunction, hf, Form.isFunction]) _
  varPlace := by
    rintro _ s _ k id name isConst type init ⟨rfl, hord⟩ hk - hf
    refine orderly_ofScope.imp fun s' ref hm href => ?_
    obtain ⟨href, hkind⟩ := refers_of_declared hord hk href (by simp [isNamedFunction, hf])
    exact ⟨href.moves hk.lt hm, hkind⟩
  paramPlace := by
    rintro _ s _ k fn f param ⟨rfl, hord⟩ hk - hf - hparam
    refine orderly_ofScope.imp fun s' ref hm href => ?_
    obtain ⟨name, type, hform⟩ := hlinked.param_part hf (mem_parts_of_params hparam)
    obtain ⟨href, hkind⟩ := refers_of_declared hord hk href (by simp [isNamedFunction, hform])
    exact ⟨href.moves hk.lt hm, hkind⟩

end TypedScript.Lower
