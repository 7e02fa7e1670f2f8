import TypedScript.Proofs.Layout.Placed
import TypedScript.Proofs.Lower.Outcome
import TypedScript.Proofs.Lower.Standing

/-!
# The places of variables

On entry to a container every variable gets a place. If the container has a scope object, that is the field under
which the variable was entered in its layout; otherwise it is a stack slot, whose address is a register that was
not given out before. One variable is placed after another, and none is placed where one is already.

* `Placed`: the variables in a list have their places.
* `runs_placeVariables`: placing variables places them.
* `Housed`: all variables of the scope have their places.
-/

namespace TypedScript.Lower

open TypedScript.Ast TypedScript.Capture TypedScript.Ir TypedScript.Layout TypedScript.Scope

/-- The variables and parameters that a scope declares. -/
def variablesOf (n : Scope.Node) : List Scope.Binding := n.bindings.filter fun b => !b.kind.isFunction

theorem mem_variablesOf {n : Scope.Node} {b : Scope.Binding} :
    b ∈ variablesOf n ↔ b ∈ n.bindings ∧ b.kind.isFunction = false := by
  simp [variablesOf]

/-- The variables that `done` declares have their places. Those on the stack have registers of their own, which
were given out before `bound`. -/
structure Placed (done : List Nat) (bound : Nat) (n : Scope.Node) : Prop where
  fields : ∀ b ∈ variablesOf n, b.decl ∈ done → b.inObject = true →
    ∃ d, n.layout = some d ∧ d.field? (fieldName b.name) = some b.field
  slots : ∀ b ∈ variablesOf n, b.decl ∈ done → b.inObject = false → ∃ r < bound, b.slot = .reg r
  apart : ∀ b ∈ variablesOf n, ∀ b' ∈ variablesOf n, b.decl ∈ done → b'.decl ∈ done → b.inObject = false →
    b'.inObject = false → b.slot = b'.slot → b.decl = b'.decl

/-- All variables of the scope have their places, and its layout has a place for the link. -/
structure Housed (inp : Input) (n : Scope.Node) : Prop where
  bindings : ∀ b ∈ n.bindings, BindingOf inp n.container b
  link : ∀ d, n.layout = some d → ∃ f, d.field? parentField = some f
  placed : ∃ bound, Placed ((variablesOf n).map (·.decl)) bound n

variable {inp : Input} {s s' : State} {k c : Nat} {n n' : Scope.Node} {done : List Nat} {bound : Nat}

/-- A scope that declares nothing. -/
theorem Housed.blank (hbindings : n.bindings = []) (hlayout : n.layout = none) : Housed inp n := by
  have hvars : variablesOf n = [] := by simp [variablesOf, hbindings]
  refine ⟨by simp [hbindings], by simp [hlayout], 0, ?_⟩
  constructor <;> simp [hvars]

/-- Places depend on the names and the layout of the scope only. -/
theorem Placed.congr (h : Placed done bound n) (hbindings : n'.bindings = n.bindings)
    (hlayout : n'.layout = n.layout) :
    Placed done bound n' := by
  have hvars : variablesOf n' = variablesOf n := by rw [variablesOf, hbindings, variablesOf]
  refine ⟨?_, ?_, ?_⟩ <;> rw [hvars]
  · rw [hlayout]
    exact h.fields
  · exact h.slots
  · exact h.apart

theorem Housed.congr (h : Housed inp n) (hcontainer : n'.container = n.container)
    (hbindings : n'.bindings = n.bindings) (hlayout : n'.layout = n.layout) : Housed inp n' where
  bindings := by rw [hbindings, hcontainer]; exact h.bindings
  link := by rw [hlayout]; exact h.link
  placed := by
    obtain ⟨bound, hplaced⟩ := h.placed
    have hvars : variablesOf n' = variablesOf n := by rw [variablesOf, hbindings, variablesOf]
    exact ⟨bound, hvars ▸ hplaced.congr hbindings hlayout⟩

/-! ### One variable after another -/

/-- Whether a variable of the container lives in the scope object is the same for all of them. -/
theorem BindingOf.inObject_eq {b : Scope.Binding} (h : BindingOf inp c b) (hb : b.kind.isFunction = false) :
    b.inObject = inp.analysis.isEscaping c := (h.storage hb).2

/-- The scope in which the bindings of one declaration have been given a place. -/
def setPlace (n : Scope.Node) (decl : Nat) (f : Scope.Binding → Scope.Binding) : Scope.Node :=
  { n with bindings := n.bindings.map fun b => if b.decl = decl then f b else b }

section

variable {decl : Nat} {f : Scope.Binding → Scope.Binding}
  (hf : ∀ b, (f b).name = b.name ∧ (f b).decl = b.decl ∧ (f b).kind = b.kind ∧ (f b).inObject = b.inObject)
include hf

/-- The bindings stay those of their declarations. -/
theorem bindings_setPlace (hn : ∀ b ∈ n.bindings, BindingOf inp c b) :
    ∀ b ∈ (setPlace n decl f).bindings, BindingOf inp c b := by
  intro b hb
  obtain ⟨b₀, hb₀, rfl⟩ := List.mem_map.1 hb
  have hof := hn b₀ hb₀
  split
  · obtain ⟨hname, hdecl, hkind, hobject⟩ := hf b₀
    refine ⟨hdecl ▸ hof.decl, by rw [hname, hdecl, hof.name], fun h => hof.object (hobject ▸ h), fun h => ?_⟩
    rw [hdecl, hobject]
    exact hof.storage (hkind ▸ h)
  · exact hof

theorem mem_variablesOf_setPlace {b : Scope.Binding} (hb : b ∈ variablesOf (setPlace n decl f)) :
    ∃ b₀ ∈ variablesOf n, b.decl = b₀.decl ∧ (b₀.decl = decl ∧ b = f b₀ ∨ b₀.decl ≠ decl ∧ b = b₀) := by
  obtain ⟨hmem, hkind⟩ := mem_variablesOf.1 hb
  obtain ⟨b₀, hb₀, rfl⟩ := List.mem_map.1 hmem
  obtain ⟨-, hdecl, hkind₀, -⟩ := hf b₀
  by_cases heq : b₀.decl = decl
  · rw [if_pos heq] at hkind ⊢
    exact ⟨b₀, mem_variablesOf.2 ⟨hb₀, hkind₀ ▸ hkind⟩, hdecl, .inl ⟨heq, rfl⟩⟩
  · rw [if_neg heq] at hkind ⊢
    exact ⟨b₀, mem_variablesOf.2 ⟨hb₀, hkind⟩, rfl, .inr ⟨heq, rfl⟩⟩

end

/-- A variable gets the field that its name has in the layout. -/
theorem Placed.setField (h : Placed done bound n) (hn : ∀ b ∈ n.bindings, BindingOf inp c b)
    (hescaping : inp.analysis.isEscaping c = true) {decl : Nat} {d : Descriptor} {field : Field}
    (hlayout : n.layout = some d) (hfield : d.field? (fieldName (inp.tree.name decl)) = some field) (bound' : Nat) :
    Placed (decl :: done) bound' (setPlace n decl fun b => { b with field }) := by
  have hf : ∀ b : Scope.Binding, ({ b with field } : Scope.Binding).name = b.name ∧
      ({ b with field } : Scope.Binding).decl = b.decl ∧ ({ b with field } : Scope.Binding).kind = b.kind ∧
      ({ b with field } : Scope.Binding).inObject = b.inObject := fun _ => ⟨rfl, rfl, rfl, rfl⟩
  have hall : ∀ b ∈ variablesOf (setPlace n decl fun b => { b with field }), b.inObject = true := by
    intro b hb
    obtain ⟨hmem, hkind⟩ := mem_variablesOf.1 hb
    exact ((bindings_setPlace hf hn b hmem).inObject_eq hkind).trans hescaping
  refine ⟨fun b hb hdone _ => ?_, fun b hb _ hstack => ?_, fun b hb _ _ _ _ hstack => ?_⟩
  · obtain ⟨b₀, hb₀, hdecl, ⟨heq, rfl⟩ | ⟨hne, rfl⟩⟩ := mem_variablesOf_setPlace hf hb
    · refine ⟨d, hlayout, ?_⟩
      change d.field? (fieldName b₀.name) = some field
      rw [(hn b₀ (mem_variablesOf.1 hb₀).1).name, heq]
      exact hfield
    · exact h.fields b hb₀ ((List.mem_cons.1 hdone).resolve_left hne) (hall b hb)
  · exact nomatch (hall b hb).symm.trans hstack
  · exact nomatch (hall b hb).symm.trans hstack

/-- A variable gets a stack slot that is new. -/
theorem Placed.setSlot (h : Placed done bound n) (hn : ∀ b ∈ n.bindings, BindingOf inp c b)
    (hescaping : inp.analysis.isEscaping c = false) (decl : Nat) :
    Placed (decl :: done) (bound + 1) (setPlace n decl fun b => { b with slot := .reg bound }) := by
  have hf : ∀ b : Scope.Binding, ({ b with slot := .reg bound } : Scope.Binding).name = b.name ∧
      ({ b with slot := .reg bound } : Scope.Binding).decl = b.decl ∧
      ({ b with slot := .reg bound } : Scope.Binding).kind = b.kind ∧
      ({ b with slot := .reg bound } : Scope.Binding).inObject = b.inObject := fun _ => ⟨rfl, rfl, rfl, rfl⟩
  -- a binding has the new slot, or it is as it was and has an older one
  have hcases : ∀ b ∈ variablesOf (setPlace n decl fun b => { b with slot := .reg bound }), b.decl ∈ decl :: done →
      b.inObject = false → b.decl = decl ∧ b.slot = .reg bound ∨
        b ∈ variablesOf n ∧ b.decl ∈ done ∧ ∃ r < bound, b.slot = .reg r := by
    intro b hb hdone hstack
    obtain ⟨b₀, hb₀, hdecl, ⟨heq, rfl⟩ | ⟨hne, rfl⟩⟩ := mem_variablesOf_setPlace hf hb
    · exact .inl ⟨heq, rfl⟩
    · have hold := (List.mem_cons.1 hdone).resolve_left hne
      exact .inr ⟨hb₀, hold, h.slots b hb₀ hold hstack⟩
  refine ⟨fun b hb hdone hobject => ?_, fun b hb hdone hstack => ?_,
    fun b hb b' hb' hdone hdone' hstack hstack' heq => ?_⟩
  · obtain ⟨hmem, hkind⟩ := mem_variablesOf.1 hb
    have hfalse := ((bindings_setPlace hf hn b hmem).inObject_eq hkind).trans hescaping
    exact nomatch hfalse.symm.trans hobject
  · rcases hcases b hb hdone hstack with ⟨-, hslot⟩ | ⟨-, -, r, hr, hslot⟩
    · exact ⟨bound, Nat.lt_succ_self _, hslot⟩
    · exact ⟨r, Nat.lt_succ_of_lt hr, hslot⟩
  · rcases hcases b hb hdone hstack with ⟨hdecl, hslot⟩ | ⟨hb₀, hold, r, hr, hslot⟩ <;>
      rcases hcases b' hb' hdone' hstack' with ⟨hdecl', hslot'⟩ | ⟨hb₀', hold', r', hr', hslot'⟩
    · rw [hdecl, hdecl']
    · rw [hslot, hslot'] at heq
      exact absurd (Operand.reg.inj heq) (Nat.ne_of_gt hr')
    · rw [hslot, hslot'] at heq
      exact absurd (Operand.reg.inj heq) (Nat.ne_of_lt hr)
    · exact h.apart b hb₀ b' hb₀' hold hold' hstack hstack' heq

theorem getElem?_modify {chain : Chain} (hn : chain.nodes[k]? = some n) (f : Scope.Node → Scope.Node) :
    (chain.modify k f).nodes[k]? = some (f n) := by
  simp [Chain.modify, Array.getElem?_modify, hn]

/-- A scope of the container whose variables are being placed. -/
structure Housing (inp : Input) (c : Nat) (vars done : List Nat) (s : State) (n : Scope.Node) : Prop where
  container : n.container = c
  bindings : ∀ b ∈ n.bindings, BindingOf inp c b
  link : ∀ d, n.layout = some d → ∃ f, d.field? parentField = some f
  decls : (variablesOf n).map (·.decl) = vars
  placed : Placed done s.registers n

theorem Housing.housed {vars : List Nat} (h : Housing inp c vars done s n) (hdone : ∀ d ∈ vars, d ∈ done) :
    Housed inp n where
  bindings := h.container ▸ h.bindings
  link := h.link
  placed := by
    rw [h.decls]
    exact ⟨_, fun b hb hd => h.placed.fields b hb (hdone _ hd), fun b hb hd => h.placed.slots b hb (hdone _ hd),
      fun b hb b' hb' hd hd' => h.placed.apart b hb b' hb' (hdone _ hd) (hdone _ hd')⟩

/-- What is registered to be released is no matter. -/
theorem Housing.congr {vars : List Nat} (h : Housing inp c vars done s n) (hregisters : s'.registers = s.registers)
    (hcontainer : n'.container = n.container) (hbindings : n'.bindings = n.bindings)
    (hlayout : n'.layout = n.layout) :
    Housing inp c vars done s' n' where
  container := hcontainer.trans h.container
  bindings := hbindings ▸ h.bindings
  link := hlayout ▸ h.link
  decls := by rw [variablesOf, hbindings]; exact h.decls
  placed := hregisters ▸ h.placed.congr hbindings hlayout

/-- The bindings of one declaration have got their place. -/
theorem Housing.setPlace {vars : List Nat} (h : Housing inp c vars done s n) {decl : Nat}
    {f : Scope.Binding → Scope.Binding}
    (hf : ∀ b, (f b).name = b.name ∧ (f b).decl = b.decl ∧ (f b).kind = b.kind ∧ (f b).inObject = b.inObject)
    (hplaced : Placed (decl :: done) s'.registers (setPlace n decl f)) :
    Housing inp c vars (decl :: done) s' (setPlace n decl f) where
  container := h.container
  bindings := bindings_setPlace hf h.bindings
  link := h.link
  decls := by
    rw [← h.decls]
    unfold variablesOf Lower.setPlace
    rw [List.filter_map, List.map_map]
    have hsame : ∀ b : Scope.Binding, (if b.decl = decl then f b else b).decl = b.decl ∧
        (if b.decl = decl then f b else b).kind = b.kind := by
      intro b
      split
      · exact ⟨(hf b).2.1, (hf b).2.2.1⟩
      · exact ⟨rfl, rfl⟩
    have hfilter : ((fun b => !b.kind.isFunction) ∘ fun b => if b.decl = decl then f b else b) =
        fun b : Scope.Binding => !b.kind.isFunction := funext fun b => by simp [(hsame b).2]
    have hmap : ((·.decl) ∘ fun b => if b.decl = decl then f b else b) = fun b : Scope.Binding => b.decl :=
      funext fun b => (hsame b).1
    rw [hfilter, hmap]
  placed := hplaced

/-! ### Runs -/

theorem runs_fieldOf {d : Descriptor} {name : String} {f : Field} (h : Runs (fieldOf d name) s f s') :
    d.field? name = some f ∧ s' = s := by
  unfold fieldOf at h
  split at h
  · rename_i g hg
    obtain ⟨rfl, rfl⟩ := runs_pure.1 h
    exact ⟨Descriptor.field_eq_ok.1 hg, rfl⟩
  · exact (runs_throw h).elim

theorem runs_scopeNode {node : Scope.Node} (h : Runs (scopeNode k) s node s') : node = s.chain.get k ∧ s' = s := by
  obtain ⟨_, _, hget, hnode⟩ := runs_bind.1 h
  obtain ⟨rfl, rfl⟩ := runs_get.1 hget
  obtain ⟨rfl, rfl⟩ := runs_pure.1 hnode
  exact ⟨rfl, rfl⟩

/-- A layout that has a field is there. -/
theorem exists_layout {layout : Option Descriptor} {name : String} {f : Field}
    (h : (layout.getD default).field? name = some f) : ∃ d, layout = some d ∧ d.field? name = some f := by
  cases layout with
  | none => exact nomatch h
  | some d => exact ⟨d, rfl, h⟩

theorem Housing.defer {vars : List Nat} {d : Deferred} {u : Unit} (h : Housing inp c vars done s n)
    (hn : s.chain.nodes[k]? = some n) (hrun : Runs (Lower.defer k d) s u s') :
    ∃ n', s'.chain.nodes[k]? = some n' ∧ Housing inp c vars done s' n' := by
  obtain rfl := runs_modify.1 hrun
  exact ⟨_, getElem?_modify hn _, h.congr rfl rfl rfl rfl⟩

theorem same_of_store {addr v : Operand} {u : Unit} (h : Runs (store addr v) s u s') :
    s'.chain = s.chain ∧ s'.registers = s.registers := by
  obtain ⟨_, t, hemit, hrest⟩ := runs_bind.1 h
  obtain rfl := runs_modify.1 hemit
  obtain ⟨-, rfl⟩ := runs_pure.1 hrest
  exact ⟨rfl, rfl⟩

/-- Placing a variable places it and leaves the places of the others. -/
theorem runs_placeVariable {vars : List Nat} {v : Scope.Binding} {u : Unit} (hn : s.chain.nodes[k]? = some n)
    (h : Housing inp c vars done s n) (hv : BindingOf inp c v) (hkind : v.kind.isFunction = false)
    (hrun : Runs (placeVariable inp k v) s u s') :
    ∃ n', s'.chain.nodes[k]? = some n' ∧ Housing inp c vars (v.decl :: done) s' n' := by
  have hescaping := hv.inObject_eq hkind
  unfold placeVariable at hrun
  dsimp only at hrun
  split at hrun
  · rename_i hobject
    obtain ⟨node, s₁, hnode, hrun₁⟩ := runs_bind.1 hrun
    obtain ⟨rfl, rfl⟩ := runs_scopeNode hnode
    obtain ⟨field, s₂, hfield, hrun₂⟩ := runs_bind.1 hrun₁
    obtain ⟨hfield, rfl⟩ := runs_fieldOf hfield
    rw [get_eq hn, hv.name] at hfield
    obtain ⟨d, hlayout, hfield⟩ := exists_layout hfield
    obtain ⟨_, s₃, hset, hrun₃⟩ := runs_bind.1 hrun₂
    obtain rfl := runs_modify.1 hset
    have hset (t : State) : Housing inp c vars (v.decl :: done) t (setPlace n v.decl fun b => { b with field }) :=
      h.setPlace (fun _ => ⟨rfl, rfl, rfl, rfl⟩)
        (h.placed.setField h.bindings (hescaping.symm.trans hobject) hlayout hfield t.registers)
    split at hrun₃
    · obtain ⟨addr, s₃, haddr, hdefer⟩ := runs_bind.1 hrun₃
      have hchain := ((calm_fieldAddr _ _ _).run haddr).1
      exact (hset s₃).defer (hchain ▸ getElem?_modify hn _) hdefer
    · obtain ⟨-, rfl⟩ := runs_pure.1 hrun₃
      exact ⟨_, getElem?_modify hn _, hset _⟩
  · rename_i hstack
    rw [Bool.not_eq_true] at hstack
    obtain ⟨slot, s₁, halloca, hrun₁⟩ := runs_bind.1 hrun
    obtain ⟨_, t, hemit, hreg⟩ := runs_bind.1 halloca
    obtain rfl := runs_modify.1 hemit
    obtain ⟨rfl, rfl⟩ := runs_modifyGet.1 hreg
    obtain ⟨_, s₂, hset, hrun₂⟩ := runs_bind.1 hrun₁
    obtain rfl := runs_modify.1 hset
    have hset (t : State) (ht : t.registers = s.registers + 1) :
        Housing inp c vars (v.decl :: done) t (setPlace n v.decl fun b => { b with slot := .reg s.registers }) :=
      h.setPlace (fun _ => ⟨rfl, rfl, rfl, rfl⟩)
        (ht ▸ h.placed.setSlot h.bindings (hescaping.symm.trans hstack) v.decl)
    split at hrun₂
    · obtain ⟨_, s₃, hstore, hdefer⟩ := runs_bind.1 hrun₂
      obtain ⟨hchain, hregisters⟩ := same_of_store hstore
      exact (hset s₃ hregisters).defer (hchain ▸ getElem?_modify hn _) hdefer
    · obtain ⟨-, rfl⟩ := runs_pure.1 hrun₂
      exact ⟨_, getElem?_modify hn _, hset _ rfl⟩

/-- All variables that are placed have their places then. -/
theorem runs_placeVariables {vars : List Nat} {vs : List Scope.Binding} {u : Unit} (hn : s.chain.nodes[k]? = some n)
    (h : Housing inp c vars done s n) (hvs : ∀ v ∈ vs, BindingOf inp c v ∧ v.kind.isFunction = false)
    (hrun : Runs (vs.forM (placeVariable inp k)) s u s') :
    ∃ n', s'.chain.nodes[k]? = some n' ∧ Housing inp c vars ((vs.map (·.decl)).reverse ++ done) s' n' := by
  induction vs generalizing s n done with
  | nil =>
    obtain ⟨-, rfl⟩ := runs_pure.1 hrun
    exact ⟨n, hn, h⟩
  | cons v vs ih =>
    rw [List.forall_mem_cons] at hvs
    obtain ⟨_, t, hplace, hrest⟩ := runs_bind.1 hrun
    obtain ⟨n₁, hn₁, h₁⟩ := runs_placeVariable hn h hvs.1.1 hvs.1.2 hplace
    obtain ⟨n', hn', h'⟩ := ih hn₁ h₁ hvs.2 hrest
    exact ⟨n', hn', by simpa using h'⟩

theorem chain_scopePointer {cur : Nat} {target : Option Nat} {v : Operand}
    (h : Runs (scopePointer cur target) s v s') :
    s'.chain = s.chain := by
  cases target with
  | none =>
    obtain ⟨-, rfl⟩ := runs_pure.1 h
    rfl
  | some m =>
    obtain ⟨_, _, hget, h₁⟩ := runs_bind.1 h
    obtain ⟨rfl, rfl⟩ := runs_get.1 hget
    dsimp only at h₁
    split at h₁
    · obtain ⟨-, rfl⟩ := runs_pure.1 h₁
      rfl
    · split at h₁
      · exact (runs_throw h₁).elim
      · refine ((Calm.get.bind fun s => .foldlM (fun v hop => ?_) _).run h₁).1
        exact (calm_scopeLayout hop).bind fun d => (calm_fieldOf _ _).bind fun f => calm_loadField _ _ _

/-- The scope object gets a layout with a place for the link. -/
theorem runs_makeScopeObject {container : Nat} {vars : List Scope.Binding} {u : Unit}
    (hn : s.chain.nodes[k]? = some n) (hrun : Runs (makeScopeObject inp k container vars) s u s') : ∃ d object link,
    d.field? parentField = some link ∧
      s'.chain.nodes[k]? = some { n with layout := some d, object } := by
  obtain ⟨_, _, hget, hrun₀⟩ := runs_bind.1 hrun
  obtain ⟨rfl, rfl⟩ := runs_get.1 hget
  dsimp only at hrun₀
  obtain ⟨_, s₁, hmod, hrun₁⟩ := runs_bind.1 hrun₀
  obtain rfl := runs_modify.1 hmod
  obtain ⟨object, s₂, hconstruct, hrun₂⟩ := runs_bind.1 hrun₁
  have hchain₂ := ((calm_construct _).run hconstruct).1
  obtain ⟨_, s₃, hset, hrun₃⟩ := runs_bind.1 hrun₂
  obtain rfl := runs_modify.1 hset
  obtain ⟨_, _, hget, hrun₄⟩ := runs_bind.1 hrun₃
  obtain ⟨rfl, rfl⟩ := runs_get.1 hget
  obtain ⟨parent, s₄, hpointer, hrun₅⟩ := runs_bind.1 hrun₄
  have hchain₄ := chain_scopePointer (runs_locate.1 hpointer)
  obtain ⟨link, s₅, hlink, hrun₆⟩ := runs_bind.1 hrun₅
  obtain ⟨hfield, rfl⟩ := runs_fieldOf hlink
  have hlast (d : Descriptor) : Calm (do retain .scope parent; store (← fieldAddr d object link) parent) :=
    (calm_retain _ _).bind fun _ => (calm_fieldAddr _ _ _).bind fun _ => calm_emitEffect _
  refine ⟨_, object, link, hfield, ?_⟩
  rw [((hlast _).run hrun₆).1, hchain₄]
  exact getElem?_modify (by rw [hchain₂]; exact hn) _

end TypedScript.Lower
